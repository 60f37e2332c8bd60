import Mathlib.Data.List.Nodup
import SeriesQuery.Proofs.FanOut.Move

/-!
# Many queries agree with each alone

Whatever the order of the events, three things hold in every state that can come about.
Every response under way or filed is one of its own query (`Attributed`).  Every query
whose task has sent its response is in the channel or filed, and only once, and the
executor has been given the statement of every query that has begun (`Counted`).  And a
gatherer that has stopped has all responses, unless the request was given up or the
deadline has passed (`Settled`).

So a request that ends undisturbed has exactly one response for each query, the one it
has when it is run alone (`agrees_with_single_runs`).
-/

namespace SeriesQuery.FanOut

variable {f : FanOut} {s t : State}

/-! ## Counting -/

/-- What a task contributes to the names of those that have sent. -/
def sentId (q : QueryRequest) (task : Task) : List String :=
  if task = .sent then [q.refId] else []

/-- What a task contributes to the statements that were executed. -/
def begunStatement (d : Dialect) (q : QueryRequest) (task : Task) : List String :=
  if task = .idle then [] else (q.sql? d).toList

/-- The names of the queries whose tasks have sent their responses. -/
def sentIds (f : FanOut) (s : State) : List String :=
  collect sentId f.requests s.tasks

/-- The statements of the queries whose tasks have begun. -/
def begunSql (f : FanOut) (s : State) : List String :=
  collect (begunStatement f.dialect) f.requests s.tasks

/-- Every response that was sent is in the channel or filed, once, and every statement
was executed once. -/
structure Counted (f : FanOut) (s : State) : Prop where
  /-- There is a task for every query. -/
  length : s.tasks.length = f.requests.length
  /-- The responses under way and those filed are the ones sent. -/
  ids : (s.channel.map Prod.fst ++ s.results.keys).Perm (f.sentIds s)
  /-- The gatherer has counted those filed. -/
  received : s.received = s.results.keys.length
  /-- The executor was given the statements of the tasks that have begun. -/
  executed : s.executed.Perm (f.begunSql s)

theorem collect_sentId_sublist (qs : List QueryRequest) (tasks : List Task) :
    (collect sentId qs tasks).Sublist (qs.map QueryRequest.refId) := by
  rw [List.map_eq_flatMap]
  refine collect_sublist (fun q task => ?_) qs tasks
  unfold sentId
  split
  · exact List.Sublist.refl _
  · exact List.nil_sublist _

theorem sentIds_sublist (f : FanOut) (s : State) :
    (f.sentIds s).Sublist (f.requests.map QueryRequest.refId) :=
  collect_sentId_sublist f.requests s.tasks

theorem counted_start (f : FanOut) : f.Counted f.start := by
  have hnone : ∀ {α : Type} (g : QueryRequest → Task → List α), (∀ q, g q .idle = []) →
      collect g f.requests f.start.tasks = [] := fun g hg => by
    have hlength : f.start.tasks.length = f.requests.length := List.length_map _
    rw [collect_eq (h := fun _ => []) hlength fun q task ht => ?_, List.flatMap_eq_nil_iff]
    · exact fun _ _ => rfl
    · obtain ⟨_, -, rfl⟩ := List.mem_map.mp ht
      exact hg q
  refine ⟨List.length_map _, ?_, rfl, ?_⟩
  · rw [sentIds, hnone _ fun _ => rfl]
    exact .refl _
  · rw [begunSql, hnone _ fun _ => rfl]
    exact .refl _

/-- The channel and the results never name a query twice. -/
theorem Counted.nodup (hs : f.Counted s) (hids : (f.requests.map QueryRequest.refId).Nodup) :
    (s.channel.map Prod.fst ++ s.results.keys).Nodup :=
  hs.ids.nodup_iff.mpr (hids.sublist (f.sentIds_sublist s))

/-- A task that gets on without having begun just now or sending its response contributes
as before. -/
theorem Counted.set_task (hs : f.Counted s) {index : Nat} {q : QueryRequest} {task task' : Task}
    (hq : f.requests[index]? = some q) (ht : s.tasks[index]? = some task)
    (hsent : sentId q task' = sentId q task)
    (hbegun : begunStatement f.dialect q task' = begunStatement f.dialect q task) :
    f.Counted { s with tasks := s.tasks.set index task' } := by
  refine ⟨(List.length_set).trans hs.length, hs.ids.trans ?_, hs.received, hs.executed.trans ?_⟩
  · have hperm := collect_set_perm sentId hq ht task'
    rw [hsent, List.perm_append_right_iff] at hperm
    exact hperm.symm
  · have hperm := collect_set_perm (begunStatement f.dialect) hq ht task'
    rw [hbegun, List.perm_append_right_iff] at hperm
    exact hperm.symm

theorem Counted.begin (hs : f.Counted s) {index : Nat} {q : QueryRequest}
    (hq : f.requests[index]? = some q) (ht : s.tasks[index]? = some .idle) :
    f.Counted { s with
      tasks := s.tasks.set index .working
      executed := s.executed ++ (q.sql? f.dialect).toList } := by
  refine ⟨(List.length_set).trans hs.length, hs.ids.trans ?_, hs.received, ?_⟩
  · have hperm := collect_set_perm sentId hq ht .working
    simp only [sentId, reduceCtorEq, if_false, List.append_nil] at hperm
    exact hperm.symm
  · have hperm := collect_set_perm (begunStatement f.dialect) hq ht .working
    simp only [begunStatement, reduceCtorEq, if_false, if_true, List.append_nil] at hperm
    exact (hs.executed.append_right _).trans hperm.symm

theorem Counted.send (hs : f.Counted s) {index : Nat} {q : QueryRequest}
    {response : DataResponse} (hq : f.requests[index]? = some q)
    (ht : s.tasks[index]? = some (.finished response)) :
    f.Counted { s with
      tasks := s.tasks.set index .sent
      channel := s.channel ++ [(q.refId, response)] } := by
  refine ⟨(List.length_set).trans hs.length, ?_, hs.received, hs.executed.trans ?_⟩
  · have hperm := collect_set_perm sentId hq ht .sent
    simp only [sentId, reduceCtorEq, if_false, if_true, List.append_nil] at hperm
    have hname : (q.refId :: f.sentIds s).Perm (f.sentIds s ++ [q.refId]) :=
      (List.perm_append_singleton _ _).symm
    rw [List.map_append, List.append_assoc]
    exact List.perm_middle.trans ((hs.ids.cons _).trans (hname.trans hperm.symm))
  · have hperm := collect_set_perm (begunStatement f.dialect) hq ht .sent
    simp only [begunStatement, reduceCtorEq, if_false, List.perm_append_right_iff] at hperm
    exact hperm.symm

theorem Counted.file (hs : f.Counted s) (hids : (f.requests.map QueryRequest.refId).Nodup)
    {m : Message} {rest : List Message} (hchannel : s.channel = m :: rest) :
    f.Counted (f.file s m rest) := by
  have hnodup := hs.nodup hids
  rw [hchannel, List.map_cons, List.cons_append, List.nodup_cons] at hnodup
  have hnew : m.1 ∉ s.results.keys := fun h => hnodup.1 (List.mem_append_right _ h)
  have hkeys := s.results.perm_keys_insert hnew m.2
  refine ⟨hs.length, ?_, ?_, hs.executed⟩
  · have hperm := hs.ids
    rw [hchannel, List.map_cons, List.cons_append] at hperm
    exact ((hkeys.append_left _).trans List.perm_middle).trans hperm
  · show s.received + 1 = (s.results.insert m.1 m.2).keys.length
    rw [hkeys.length_eq, List.length_cons, hs.received]

/-- Every move keeps the count. -/
theorem Move.counted (hids : (f.requests.map QueryRequest.refId).Nodup) (hs : f.Counted s)
    (h : f.Move s t) : f.Counted t := by
  cases h with
  | begin hq ht => exact hs.begin hq ht
  | finish hq ht => exact hs.set_task hq ht rfl rfl
  | send hq ht => exact hs.send hq ht
  | drop hq ht => exact hs.set_task hq ht rfl rfl
  | receive _ hchannel => exact hs.file hids hchannel
  | desert | stop | expire | cancel | elapse => exact ⟨hs.length, hs.ids, hs.received, hs.executed⟩

theorem Reachable.counted (hids : (f.requests.map QueryRequest.refId).Nodup)
    (hs : f.Reachable s) : f.Counted s :=
  hs.keeps f.counted_start fun _ _ _ hs h => h.counted hids hs

/-- The channel has room for the response of every task that has not sent it. -/
theorem Counted.room (hs : f.Counted s) {index : Nat} {q : QueryRequest}
    {response : DataResponse} (hq : f.requests[index]? = some q)
    (ht : s.tasks[index]? = some (.finished response)) : s.channel.length < f.capacity := by
  have hsent := (hs.send hq ht).ids.length_eq
  have hle := (f.sentIds_sublist
    { s with
      tasks := s.tasks.set index .sent
      channel := s.channel ++ [(q.refId, response)] }).length_le
  rw [List.length_map] at hle
  rw [← hsent, List.length_append, List.length_map, List.length_append, List.length_singleton] at hle
  unfold capacity
  omega

theorem Counted.channel_le (hs : f.Counted s) : s.channel.length ≤ f.capacity := by
  have hle := (f.sentIds_sublist s).length_le
  rw [← hs.ids.length_eq, List.length_append, List.length_map, List.length_map] at hle
  unfold capacity
  omega

/-! ## Settling -/

theorem Move.givenUp (h : f.Move s t) (hs : s.givenUp = true) : t.givenUp = true := by
  unfold State.givenUp at *
  cases h with
  | begin | finish | send | drop | elapse => exact hs
  | receive hgatherer =>
    rw [hgatherer] at hs
    simp only [bne_self_eq_false, Bool.or_false] at hs
    simp [file, hs]
  | desert | stop | expire => simp
  | cancel => simp

/-- The gatherer stops for a reason. -/
structure Settled (f : FanOut) (s : State) : Prop where
  /-- It goes on as long as a response is missing. -/
  gathering : s.gatherer = .gathering → s.received < f.requests.length
  /-- It ends when none is. -/
  complete : s.gatherer = .complete → s.received = f.requests.length
  /-- It sees that the request is given up only if it is. -/
  cancelled : s.gatherer = .cancelled → s.cancelled = true
  /-- It is left alone only if the request is given up. -/
  deserted : s.gatherer = .deserted → s.cancelled = true
  /-- A task gives up only if the request is given up or the gatherer has stopped. -/
  dropped : .dropped ∈ s.tasks → s.givenUp = true

theorem settled_start (f : FanOut) : f.Settled f.start := by
  have hdropped : .dropped ∉ f.start.tasks := by
    intro h
    obtain ⟨_, -, he⟩ := List.mem_map.mp h
    cases he
  by_cases hnil : f.requests = []
  · have hgatherer : f.start.gatherer = .complete := if_pos hnil
    refine ⟨?_, fun _ => ?_, ?_, ?_, fun h => absurd h hdropped⟩
    · rw [hgatherer]
      exact fun h => nomatch h
    · rw [hnil]
      rfl
    · rw [hgatherer]
      exact fun h => nomatch h
    · rw [hgatherer]
      exact fun h => nomatch h
  · have hgatherer : f.start.gatherer = .gathering := if_neg hnil
    refine ⟨fun _ => List.length_pos_iff.mpr hnil, ?_, ?_, ?_, fun h => absurd h hdropped⟩ <;>
      · rw [hgatherer]
        exact fun h => nomatch h

/-- If no task can send anything more and nothing is left in the channel, some task has
given up. -/
theorem dropped_of_deserted (hc : f.Counted s) (hs : f.Settled s)
    (hgatherer : s.gatherer = .gathering) (hchannel : s.channel = [])
    (hover : s.tasks.all Task.isOver = true) : .dropped ∈ s.tasks := by
  by_contra hnot
  have hsent : ∀ q, ∀ task ∈ s.tasks, sentId q task = [q.refId] := by
    intro q task ht
    have hover := List.all_eq_true.mp hover task ht
    cases task with
    | sent => rfl
    | dropped => exact absurd ht hnot
    | idle | working | finished => cases hover
  have hids := hc.ids
  rw [sentIds, collect_eq hc.length hsent, hchannel] at hids
  have hlength := hids.length_eq
  rw [List.map_nil, List.nil_append, ← List.map_eq_flatMap, List.length_map, ← hc.received]
    at hlength
  exact Nat.ne_of_lt (hs.gathering hgatherer) hlength

/-- What a task does does not settle anything, unless it gives up. -/
theorem Settled.set_task (hs : f.Settled s) {index : Nat} (task : Task)
    (htask : task = .dropped → s.givenUp = true) (channel : List Message)
    (executed : List String) :
    f.Settled { s with tasks := s.tasks.set index task, channel, executed } := by
  refine ⟨hs.gathering, hs.complete, hs.cancelled, hs.deserted, fun h => ?_⟩
  rcases List.mem_or_eq_of_mem_set h with h | h
  · exact hs.dropped h
  · exact htask h.symm

/-- Every move keeps the gatherer settled. -/
theorem Move.settled (hc : f.Counted s) (hs : f.Settled s) (h : f.Move s t) : f.Settled t := by
  have hgiven := h.givenUp
  cases h with
  | begin => exact hs.set_task .working nofun _ _
  | finish => exact hs.set_task (.finished _) nofun _ _
  | send => exact hs.set_task .sent nofun _ _
  | drop _ _ hseen => exact hs.set_task .dropped (fun _ => hseen) _ _
  | receive hgatherer =>
    have hlt := hs.gathering hgatherer
    by_cases hmore : s.received + 1 < f.requests.length
    · refine ⟨fun _ => hmore, ?_, ?_, ?_, fun h => hgiven (hs.dropped h)⟩ <;>
        simp [file, hmore]
    · refine ⟨?_, fun _ => ?_, ?_, ?_, fun h => hgiven (hs.dropped h)⟩
      · simp [file, hmore]
      · show s.received + 1 = f.requests.length
        omega
      · simp [file, hmore]
      · simp [file, hmore]
  | desert hgatherer hchannel hover =>
    have hdropped := dropped_of_deserted hc hs hgatherer hchannel hover
    have hcancelled : s.cancelled = true := by
      have hgiven := hs.dropped hdropped
      rw [State.givenUp, hgatherer] at hgiven
      simpa using hgiven
    exact ⟨nofun, nofun, nofun, fun _ => hcancelled, fun h => hgiven (hs.dropped h)⟩
  | stop _ hcancelled =>
    exact ⟨nofun, nofun, fun _ => hcancelled, nofun, fun h => hgiven (hs.dropped h)⟩
  | expire =>
    exact ⟨nofun, nofun, nofun, nofun, fun h => hgiven (hs.dropped h)⟩
  | cancel =>
    exact ⟨hs.gathering, hs.complete, fun _ => rfl, fun _ => rfl,
      fun h => hgiven (hs.dropped h)⟩
  | elapse => exact ⟨hs.gathering, hs.complete, hs.cancelled, hs.deserted, hs.dropped⟩

theorem Reachable.settled (hids : (f.requests.map QueryRequest.refId).Nodup)
    (hs : f.Reachable s) : f.Settled s :=
  hs.keeps f.settled_start fun _ _ hr hs h => h.settled (hr.counted hids) hs

/-! ## Attribution -/

/-- A response carries the output of a run of a query, in which the executor notices that the
request has been given up only if it has. -/
def Answers (f : FanOut) (given : Bool) (q : QueryRequest) (r : DataResponse) : Prop :=
  ∃ noticed output, (noticed = true → given = true) ∧
    (f.runOf noticed q).output = .done output ∧ r.Carries output

theorem Answers.mono {given given' : Bool} {q : QueryRequest} {r : DataResponse}
    (h : f.Answers given q r) (hgiven : given = true → given' = true) :
    f.Answers given' q r := by
  obtain ⟨noticed, output, hnoticed, houtput, hr⟩ := h
  exact ⟨noticed, output, fun h => hgiven (hnoticed h), houtput, hr⟩

/-- Every response is one of its own query. -/
structure Attributed (f : FanOut) (s : State) : Prop where
  /-- That of a task. -/
  finished : ∀ (index : Nat) (q : QueryRequest) (r : DataResponse),
    f.requests[index]? = some q → s.tasks[index]? = some (.finished r) → f.Answers s.givenUp q r
  /-- One in the channel. -/
  channel : ∀ m ∈ s.channel, ∃ q ∈ f.requests, q.refId = m.1 ∧ f.Answers s.givenUp q m.2
  /-- One that was filed. -/
  results : ∀ id r, s.results.find? id = some r →
    ∃ q ∈ f.requests, q.refId = id ∧ f.Answers s.cancelled q r

theorem attributed_start (f : FanOut) : f.Attributed f.start := by
  refine ⟨fun index q r _ ht => ?_, fun _ h => (nomatch h), fun _ _ h => (nomatch h)⟩
  obtain ⟨_, -, he⟩ := List.mem_map.mp (List.mem_of_getElem? ht)
  cases he

theorem Attributed.set_task (hs : f.Attributed s) {index : Nat} {q : QueryRequest} (task : Task)
    (hq : f.requests[index]? = some q)
    (htask : ∀ r, task = .finished r → f.Answers s.givenUp q r) (executed : List String) :
    f.Attributed { s with tasks := s.tasks.set index task, executed } := by
  refine ⟨fun i q' r hq' ht => ?_, hs.channel, hs.results⟩
  rw [List.getElem?_set] at ht
  by_cases hi : index = i
  · subst hi
    obtain rfl := Option.some.inj (hq.symm.trans hq')
    rw [if_pos rfl] at ht
    split at ht
    · exact htask r (Option.some.inj ht)
    · cases ht
  · rw [if_neg hi] at ht
    exact hs.finished i q' r hq' ht

/-- Every move keeps responses with their queries. -/
theorem Move.attributed (hs : f.Attributed s) (h : f.Move s t) : f.Attributed t := by
  have hgiven := h.givenUp
  cases h with
  | begin hq => exact hs.set_task .working hq nofun _
  | finish hq _ hnoticed houtput =>
    refine hs.set_task (.finished _) hq (fun r hr => ?_) s.executed
    exact ⟨_, _, hnoticed, houtput, DataResponse.eq_ofOutput_iff.mp (Task.finished.inj hr).symm⟩
  | @send _ q response hq ht =>
    obtain ⟨hfinished, -, hresults⟩ := hs.set_task .sent hq nofun s.executed
    refine ⟨hfinished, fun m hm => ?_, hresults⟩
    rcases List.mem_append.mp hm with hm | hm
    · exact hs.channel m hm
    · obtain rfl := List.mem_singleton.mp hm
      exact ⟨q, List.mem_of_getElem? hq, rfl, hs.finished _ q response hq ht⟩
  | drop hq => exact hs.set_task .dropped hq nofun s.executed
  | @receive m rest hgatherer hchannel =>
    refine ⟨fun i q r hq ht => (hs.finished i q r hq ht).mono hgiven, fun m' hm' => ?_,
      fun id r hfind => ?_⟩
    · obtain ⟨q, hq, hid, hr⟩ := hs.channel m' (hchannel ▸ List.mem_cons_of_mem _ hm')
      exact ⟨q, hq, hid, hr.mono hgiven⟩
    · by_cases hid : m.1 = id
      · subst hid
        rw [file, SortedMap.find?_insert, Option.some.injEq] at hfind
        obtain ⟨q, hq, hid, hr⟩ := hs.channel m (hchannel ▸ List.mem_cons_self)
        refine ⟨q, hq, hid, hfind ▸ hr.mono fun h => ?_⟩
        -- While the gatherer goes on, only the caller can have given the request up.
        rw [State.givenUp, hgatherer] at h
        simpa [file] using h
      · rw [file, SortedMap.find?_insert_of_ne _ hid] at hfind
        exact hs.results id r hfind
  | desert | stop | expire | cancel | elapse =>
    refine ⟨fun i q r hq ht => (hs.finished i q r hq ht).mono hgiven, fun m hm => ?_,
      fun id r hfind => ?_⟩
    · obtain ⟨q, hq, hid, hr⟩ := hs.channel m hm
      exact ⟨q, hq, hid, hr.mono hgiven⟩
    · obtain ⟨q, hq, hid, hr⟩ := hs.results id r hfind
      exact ⟨q, hq, hid, hr.mono fun h => by simp [h]⟩

theorem Reachable.attributed (hs : f.Reachable s) : f.Attributed s :=
  hs.keeps f.attributed_start fun _ _ _ hs h => h.attributed hs

/-! ## Agreement -/

/-- A response that was filed is not filed again. -/
theorem Move.find?_results (hids : (f.requests.map QueryRequest.refId).Nodup) (hs : f.Counted s)
    (h : f.Move s t) {id : String} {r : DataResponse} (hfind : s.results.find? id = some r) :
    t.results.find? id = some r := by
  cases h with
  | @receive m rest _ hchannel =>
    have hnodup := hs.nodup hids
    rw [hchannel, List.map_cons, List.cons_append, List.nodup_cons] at hnodup
    have hne : m.1 ≠ id := by
      rintro rfl
      exact hnodup.1 (List.mem_append_right _ (SortedMap.mem_keys_iff.mpr ⟨r, hfind⟩))
    rw [file, SortedMap.find?_insert_of_ne _ hne, hfind]
  | begin | finish | send | drop | desert | stop | expire | cancel | elapse => exact hfind

theorem find?_results_afterAll (hids : (f.requests.map QueryRequest.refId).Nodup)
    (hs : f.Reachable s) {id : String} {r : DataResponse} (hfind : s.results.find? id = some r)
    (es : List Event) : (f.afterAll s es).results.find? id = some r := by
  induction es generalizing s with
  | nil => exact hfind
  | cons e es ih =>
    show (f.afterAll ((f.after? s e).getD s) es).results.find? id = some r
    cases he : f.after? s e with
    | none => exact ih hs hfind
    | some t =>
      exact ih (hs.step e he)
        ((move_of_after? he).find?_results hids (hs.counted hids) hfind)

/-- A task whose query has ended can put its response into the channel. -/
theorem exists_after?_send (hs : f.Counted s) {index : Nat} {response : DataResponse}
    (ht : s.tasks[index]? = some (.finished response)) :
    ∃ t, f.after? s (.send index) = some t := by
  have hlt : index < f.requests.length := by
    rw [← hs.length]
    exact (List.getElem?_eq_some_iff.mp ht).1
  have hq := List.getElem?_eq_getElem hlt
  simp [after?, afterTaskAt?, afterTask?, hq, ht, hs.room hq ht]

/-- A gatherer that has stopped, though the request was not given up and the deadline had
not passed, has all responses. -/
theorem complete_of_stopped (hs : f.Settled s) (hstopped : s.gatherer ≠ .gathering)
    (hlate : s.gatherer ≠ .late) (hcancelled : s.cancelled = false) :
    s.gatherer = .complete := by
  cases hgatherer : s.gatherer with
  | gathering => exact absurd hgatherer hstopped
  | complete => rfl
  | deserted =>
    rw [hs.deserted hgatherer] at hcancelled
    cases hcancelled
  | cancelled =>
    rw [hs.cancelled hgatherer] at hcancelled
    cases hcancelled
  | late => exact absurd hgatherer hlate

/-- If as many tasks have sent as there are, all have. -/
theorem sent_of_length {qs : List QueryRequest} {tasks : List Task}
    (hlength : tasks.length = qs.length) (h : (collect sentId qs tasks).length = qs.length) :
    ∀ task ∈ tasks, task = .sent := by
  induction qs generalizing tasks with
  | nil =>
    rw [List.eq_nil_of_length_eq_zero hlength]
    exact fun _ h => nomatch h
  | cons q qs ih =>
    cases tasks with
    | nil => cases hlength
    | cons task tasks =>
      have hlength' : tasks.length = qs.length := Nat.succ.inj hlength
      have hle : (collect sentId qs tasks).length ≤ qs.length := by
        have hle := (collect_sentId_sublist qs tasks).length_le
        rwa [List.length_map] at hle
      rw [collect, List.length_append, List.length_cons] at h
      have htask : task = .sent := by
        by_contra hne
        rw [sentId, if_neg hne, List.length_nil] at h
        omega
      rw [htask, sentId, if_pos rfl, List.length_singleton] at h
      intro task' hmem
      rcases List.mem_cons.mp hmem with rfl | hmem
      · exact htask
      · exact ih hlength' (by omega) task' hmem

/-- A gatherer that has all responses has one for each query, and every statement has
been executed. -/
theorem all_of_complete (hc : f.Counted s) (hs : f.Settled s)
    (hcomplete : s.gatherer = .complete) :
    s.results.keys.Perm (f.requests.map QueryRequest.refId) ∧
      s.executed.Perm (f.requests.flatMap fun q => (q.sql? f.dialect).toList) := by
  have hkeys : s.results.keys.length = f.requests.length := by
    rw [← hc.received, hs.complete hcomplete]
  have hsub := f.sentIds_sublist s
  have hle := hsub.length_le
  have hlength := hc.ids.length_eq
  rw [List.length_map] at hle
  rw [List.length_append, List.length_map, hkeys] at hlength
  have hchannel : s.channel = [] := List.eq_nil_of_length_eq_zero (by omega)
  have hsent : (f.sentIds s).length = f.requests.length := by omega
  constructor
  · have hids := hc.ids
    rw [hchannel, List.map_nil, List.nil_append,
      hsub.eq_of_length (hsent.trans (List.length_map _).symm)] at hids
    exact hids
  · have htasks := sent_of_length hc.length hsent
    have hexecuted := hc.executed
    rw [begunSql, collect_eq hc.length fun q task ht => ?_] at hexecuted
    · exact hexecuted
    · rw [htasks task ht, begunStatement, if_neg (by decide)]

/-- Queries of different names, whose executor answers each statement as it does, agree
with the same queries run alone, whatever the order of the events.  Every response filed
is one of the query of its name, and stays; the channel has room for every response; and
once the gatherer has stopped though nobody gave the request up and no deadline passed,
there is for every query exactly the response it has alone, and the executor has been
given every statement once.  A response that agrees has the frame of the output and, if there
was an error, its kind, its words and its place. -/
theorem agrees_with_single_runs (f : FanOut) (hids : (f.requests.map QueryRequest.refId).Nodup)
    (s : State) (hs : f.Reachable s) :
    (∀ id r, s.results.find? id = some r →
      (∃ q ∈ f.requests, q.refId = id ∧ f.Answers s.cancelled q r) ∧
        ∀ es, (f.afterAll s es).results.find? id = some r) ∧
      s.channel.length ≤ f.capacity ∧
      (∀ (index : Nat) (response : DataResponse),
        s.tasks[index]? = some (.finished response) → ∃ t, f.after? s (.send index) = some t) ∧
      (s.gatherer ≠ .gathering → s.gatherer ≠ .late → s.cancelled = false →
        s.results.keys.Perm (f.requests.map QueryRequest.refId) ∧
          (∀ q ∈ f.requests, ∃ output r, (f.runOf false q).output = .done output ∧
            s.results.find? q.refId = some r ∧ r.Carries output) ∧
          s.executed.Perm (f.requests.flatMap fun q => (q.sql? f.dialect).toList)) := by
  have hcounted := hs.counted hids
  have hsettled := hs.settled hids
  have hattributed := hs.attributed
  refine ⟨fun id r hfind => ⟨hattributed.results id r hfind, fun es =>
    find?_results_afterAll hids hs hfind es⟩, hcounted.channel_le, fun index response ht =>
    exists_after?_send hcounted ht, fun hstopped hlate hcancelled => ?_⟩
  obtain ⟨hkeys, hexecuted⟩ := all_of_complete hcounted hsettled
    (complete_of_stopped hsettled hstopped hlate hcancelled)
  refine ⟨hkeys, fun q hq => ?_, hexecuted⟩
  have hkey : q.refId ∈ s.results.keys := hkeys.mem_iff.mpr (List.mem_map.mpr ⟨q, hq, rfl⟩)
  obtain ⟨r, hfind⟩ := SortedMap.mem_keys_iff.mp hkey
  obtain ⟨q', hq', hid, noticed, output, hnoticed, houtput, hr⟩ :=
    hattributed.results q.refId r hfind
  obtain rfl := List.inj_on_of_nodup_map hids hq' hq hid
  cases noticed with
  | false => exact ⟨output, r, houtput, hfind, hr⟩
  | true =>
    rw [hnoticed rfl] at hcancelled
    cases hcancelled

/-- Two queries, of which the executor answers one and has a fault at the other. -/
def answerAndFault : FanOut where
  requests := [{ QueryRequest.oneColumn with refId := "B", raw := "SELECT w" },
    QueryRequest.oneColumn]
  executor :=
    { answer := fun sql =>
        if sql = "SELECT v" then .rows ⟨[⟨"v", .kind .integer⟩], ⟨[[.int 1]], none⟩⟩
        else .fault "division by zero" }
  dialect := .snowflake

/-- The query that comes last is answered first. -/
def crossing : List Event :=
  [.begin 1, .begin 0, .finish 0 false, .finish 1 false, .send 1, .receive, .send 0, .receive]

/-- The output of the query that is answered. -/
def answered : QueryOutput :=
  ⟨⟨Frame.responseName, [.ofColumn "v" ⟨.integer, #[some 1]⟩], some ⟨.table, "SELECT v"⟩⟩, none⟩

/-- The output of the query that has the fault. -/
def faulted : QueryOutput :=
  ⟨⟨Frame.responseName, [], some ⟨.timeseriesWide, "SELECT w"⟩⟩, some (.fault "division by zero")⟩

/-- Both queries have the response they have alone: one its frame, and the other its fault. -/
theorem agrees_answerAndFault :
    let s := answerAndFault.afterAll answerAndFault.start crossing
    s.gatherer = .complete ∧ s.results.keys.Perm ["B", "A"] ∧
      (∃ r, s.results.find? "A" = some r ∧ r.frames = [answered.frame] ∧ r.error = none) ∧
      (∃ r sent, s.results.find? "B" = some r ∧ r.frames = [faulted.frame] ∧
        r.error = some sent ∧ sent.status = 400 ∧ sent.kind = .internalFault ∧
        sent.message = "panic: division by zero") ∧
      s.executed = ["SELECT v", "SELECT w"] := by
  intro s
  have hcomplete : s.gatherer = .complete := by decide +kernel
  have hcancelled : s.cancelled = false := by decide +kernel
  have hexecuted : s.executed = ["SELECT v", "SELECT w"] := by decide +kernel
  have hagrees := agrees_with_single_runs answerAndFault (by decide) s
    (reachable_afterAll .start crossing)
  rw [hcomplete] at hagrees
  obtain ⟨hkeys, hresponses, -⟩ := hagrees.2.2.2 (by decide) (by decide) hcancelled
  refine ⟨hcomplete, hkeys, ?_, ?_, hexecuted⟩
  · obtain ⟨output, r, houtput, hfind, hr⟩ :=
      hresponses QueryRequest.oneColumn (List.mem_cons_of_mem _ List.mem_cons_self)
    have hdone : (answerAndFault.runOf false QueryRequest.oneColumn).output = .done answered := by
      decide +kernel
    cases hdone.symm.trans houtput
    exact ⟨r, hfind, hr.frames, hr.error_none rfl⟩
  · obtain ⟨output, r, houtput, hfind, hr⟩ := hresponses _ List.mem_cons_self
    have hdone : (answerAndFault.runOf false
        { QueryRequest.oneColumn with refId := "B", raw := "SELECT w" }).output =
          .done faulted := by decide +kernel
    cases hdone.symm.trans houtput
    obtain ⟨sent, hsent, hstatus, hkind, hmessage, -⟩ := hr.error_some _ rfl
    exact ⟨r, sent, hfind, hr.frames, hsent, hstatus, hkind, hmessage⟩

end SeriesQuery.FanOut
