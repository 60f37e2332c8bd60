import SeriesQuery.FanOut.Basic
import SeriesQuery.Proofs.Query.Containment

/-!
# What can happen to a request of many queries

`Move` says once what an event can do: one case for each, with what has to hold before
it.  Every event that can happen is a move (`move_of_after?`), and what every move keeps
holds in all states that can come about (`Reachable.keeps`).
-/

namespace SeriesQuery.FanOut

/-- A state follows another one by one event. -/
inductive Move (f : FanOut) (s : State) : State → Prop where
  | begin {index : Nat} {q : QueryRequest} (hq : f.requests[index]? = some q)
      (ht : s.tasks[index]? = some .idle) :
      Move f s { s with
        tasks := s.tasks.set index .working
        executed := s.executed ++ (q.sql? f.dialect).toList }
  | finish {index : Nat} {q : QueryRequest} {noticed : Bool} {output : QueryOutput}
      (hq : f.requests[index]? = some q) (ht : s.tasks[index]? = some .working)
      (hnoticed : noticed = true → s.givenUp = true)
      (houtput : (f.runOf noticed q).output = .done output) :
      Move f s { s with tasks := s.tasks.set index (.finished (.ofOutput output)) }
  | send {index : Nat} {q : QueryRequest} {response : DataResponse}
      (hq : f.requests[index]? = some q) (ht : s.tasks[index]? = some (.finished response))
      (hroom : s.channel.length < f.capacity) :
      Move f s { s with
        tasks := s.tasks.set index .sent
        channel := s.channel ++ [(q.refId, response)] }
  | drop {index : Nat} {q : QueryRequest} {response : DataResponse}
      (hq : f.requests[index]? = some q) (ht : s.tasks[index]? = some (.finished response))
      (hgiven : s.givenUp = true) : Move f s { s with tasks := s.tasks.set index .dropped }
  | receive {m : Message} {rest : List Message} (hgatherer : s.gatherer = .gathering)
      (hchannel : s.channel = m :: rest) : Move f s (f.file s m rest)
  | desert (hgatherer : s.gatherer = .gathering) (hchannel : s.channel = [])
      (hover : s.tasks.all Task.isOver = true) : Move f s { s with gatherer := .deserted }
  | stop (hgatherer : s.gatherer = .gathering) (hcancelled : s.cancelled = true) :
      Move f s { s with gatherer := .cancelled }
  | expire (hgatherer : s.gatherer = .gathering) (hlate : s.late = true) :
      Move f s { s with gatherer := .late }
  | cancel : Move f s { s with cancelled := true }
  | elapse : Move f s { s with late := true }

variable {f : FanOut} {s t : State}

theorem move_of_afterTask? {index : Nat} {q : QueryRequest} {e : Event} {task : Task}
    (hq : f.requests[index]? = some q) (ht : s.tasks[index]? = some task)
    (h : f.afterTask? s index q e task = some t) : f.Move s t := by
  unfold afterTask? at h
  split at h
  next =>
    obtain rfl := Option.some.inj h
    have hexecuted : (f.runOf s.givenUp q).executed = (q.sql? f.dialect).toList :=
      QueryRequest.executed_run
    rw [hexecuted]
    exact .begin hq ht
  next noticed =>
    split at h
    next => cases h
    next hnot =>
      split at h
      next output houtput =>
        obtain rfl := Option.some.inj h
        refine .finish hq ht (fun hnoticed => ?_) houtput
        rw [hnoticed, Bool.true_and, Bool.not_eq_true', Bool.not_eq_false] at hnot
        exact hnot
      next => cases h
  next response =>
    split at h
    next hroom =>
      obtain rfl := Option.some.inj h
      exact .send hq ht hroom
    next => cases h
  next response =>
    split at h
    next hgiven =>
      obtain rfl := Option.some.inj h
      exact .drop hq ht hgiven
    next => cases h
  next => cases h

theorem move_of_afterTaskAt? {index : Nat} {e : Event} (h : f.afterTaskAt? s index e = some t) :
    f.Move s t := by
  unfold afterTaskAt? at h
  split at h
  next q task hq ht => exact move_of_afterTask? hq ht h
  next => cases h

/-- Every event that can happen is a move. -/
theorem move_of_after? {e : Event} (h : f.after? s e = some t) : f.Move s t := by
  cases e with
  | begin index => exact move_of_afterTaskAt? h
  | finish index noticed => exact move_of_afterTaskAt? h
  | send index => exact move_of_afterTaskAt? h
  | drop index => exact move_of_afterTaskAt? h
  | receive =>
    rw [after?] at h
    split at h
    next m rest hgatherer hchannel =>
      obtain rfl := Option.some.inj h
      exact .receive hgatherer hchannel
    next => cases h
  | desert =>
    rw [after?] at h
    split at h
    next hguard =>
      obtain rfl := Option.some.inj h
      exact .desert hguard.1 hguard.2.1 hguard.2.2
    next => cases h
  | stop =>
    rw [after?] at h
    split at h
    next hguard =>
      obtain rfl := Option.some.inj h
      exact .stop hguard.1 hguard.2
    next => cases h
  | expire =>
    rw [after?] at h
    split at h
    next hguard =>
      obtain rfl := Option.some.inj h
      exact .expire hguard.1 hguard.2
    next => cases h
  | cancel =>
    obtain rfl := Option.some.inj h
    exact .cancel
  | elapse =>
    obtain rfl := Option.some.inj h
    exact .elapse

/-- What holds at first and is kept by every move holds always. -/
theorem Reachable.keeps {P : State → Prop} (hstart : P f.start)
    (hmove : ∀ s t, f.Reachable s → P s → f.Move s t → P t) (hs : f.Reachable s) : P s := by
  induction hs with
  | start => exact hstart
  | step e hs he ih => exact hmove _ _ hs ih (move_of_after? he)

/-! ## What the tasks contribute -/

/-- What the tasks contribute by how far they are, one after the other. -/
def collect {α : Type} (g : QueryRequest → Task → List α) : List QueryRequest → List Task → List α
  | q :: qs, task :: tasks => g q task ++ collect g qs tasks
  | _, _ => []

/-- A task that gets on gives what it gives then in the place of what it gave before. -/
theorem collect_set_perm {α : Type} (g : QueryRequest → Task → List α) {qs : List QueryRequest}
    {tasks : List Task} {index : Nat} {q : QueryRequest} {task : Task} (hq : qs[index]? = some q)
    (ht : tasks[index]? = some task) (task' : Task) :
    (collect g qs (tasks.set index task') ++ g q task).Perm (collect g qs tasks ++ g q task') := by
  induction qs generalizing tasks index with
  | nil => cases hq
  | cons r qs ih =>
    cases tasks with
    | nil => cases ht
    | cons u tasks =>
      cases index with
      | zero =>
        obtain rfl := Option.some.inj hq
        obtain rfl := Option.some.inj ht
        rw [List.set_cons_zero, collect, collect]
        refine List.perm_append_comm.trans ?_
        rw [List.append_assoc]
        exact List.perm_append_comm.append_left _
      | succ index =>
        rw [List.getElem?_cons_succ] at hq ht
        rw [List.set_cons_succ, collect, collect, List.append_assoc, List.append_assoc]
        exact (ih hq ht).append_left _

/-- Tasks that give nothing more than their queries give no more than those. -/
theorem collect_sublist {α : Type} {g : QueryRequest → Task → List α} {h : QueryRequest → List α}
    (hg : ∀ q task, (g q task).Sublist (h q)) (qs : List QueryRequest) (tasks : List Task) :
    (collect g qs tasks).Sublist (qs.flatMap h) := by
  induction qs generalizing tasks with
  | nil => cases tasks <;> exact List.Sublist.slnil
  | cons q qs ih =>
    cases tasks with
    | nil => exact List.nil_sublist _
    | cons task tasks => exact (hg q task).append (ih tasks)

/-- Tasks that all give what their queries give, give it all. -/
theorem collect_eq {α : Type} {g : QueryRequest → Task → List α} {h : QueryRequest → List α}
    {qs : List QueryRequest} {tasks : List Task} (hlength : tasks.length = qs.length)
    (hg : ∀ q, ∀ task ∈ tasks, g q task = h q) : collect g qs tasks = qs.flatMap h := by
  induction qs generalizing tasks with
  | nil => cases tasks <;> rfl
  | cons q qs ih =>
    cases tasks with
    | nil => cases hlength
    | cons task tasks =>
      rw [collect, List.flatMap_cons, hg q task List.mem_cons_self,
        ih (Nat.succ.inj hlength) fun q' task' ht => hg q' task' (List.mem_cons_of_mem _ ht)]

end SeriesQuery.FanOut
