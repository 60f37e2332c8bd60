import SeriesQuery.Service.Response

/-!
# Many queries at once

The queries of a request are run side by side, each by a task of its own.  A task
whose query has ended puts the response into a channel, or gives up if the request
has been given up by then.  The gatherer takes responses from the channel and files
them under the names of their queries, until it has as many as there are queries,
the request is given up or the deadline has passed.

What may happen next is said by `FanOut.after?`: it gives the state after an event,
or nothing if the event cannot happen.  Where several events can happen none is
preferred, so every order of them is a run (`FanOut.Reachable`).  In particular the
gatherer may stop while responses lie in the channel, and may take one although the
request has been given up.
-/

namespace SeriesQuery

/-- A request of several queries. -/
structure FanOut where
  requests : List QueryRequest
  /-- What answers their statements. -/
  executor : Executor
  dialect : Dialect

namespace FanOut

/-- How far a task is. -/
inductive Task where
  /-- Not started. -/
  | idle
  /-- Running its query. -/
  | working
  /-- Its query has ended with a response. -/
  | finished (response : DataResponse)
  /-- The response is in the channel, or was. -/
  | sent
  /-- It has given up. -/
  | dropped
deriving DecidableEq

/-- Why the gatherer stopped, if it did. -/
inductive Gatherer where
  /-- It goes on. -/
  | gathering
  /-- Every query has been answered. -/
  | complete
  /-- No task is left to answer. -/
  | deserted
  /-- The request was given up. -/
  | cancelled
  /-- The deadline had passed. -/
  | late
deriving DecidableEq

/-- A response under way, with the name of its query. -/
abbrev Message := String × DataResponse

/-- A state of a request. -/
structure State where
  /-- The tasks, one for each query. -/
  tasks : List Task
  /-- The responses under way, the oldest first. -/
  channel : List Message
  /-- The responses that were filed. -/
  results : SortedMap String DataResponse
  /-- How many responses were filed. -/
  received : Nat
  /-- Whether the caller has given the request up. -/
  cancelled : Bool
  /-- Whether the deadline has passed. -/
  late : Bool
  /-- What the gatherer does. -/
  gatherer : Gatherer
  /-- The statements that the executor was given, in order. -/
  executed : List String

/-- Whether the tasks see the request as given up: the caller has given it up, or
the gatherer has stopped. -/
def State.givenUp (s : State) : Bool := s.cancelled || s.gatherer != .gathering

/-- How many responses the channel has room for. -/
def capacity (f : FanOut) : Nat := f.requests.length

/-- The state before anything has happened.  Without queries there is nothing to
gather. -/
def start (f : FanOut) : State where
  tasks := f.requests.map fun _ => .idle
  channel := []
  results := .empty
  received := 0
  cancelled := false
  late := false
  gatherer := if f.requests = [] then .complete else .gathering
  executed := []

/-- Something that happens. -/
inductive Event where
  /-- A task starts and gives its statement to the executor. -/
  | begin (index : Nat)
  /-- The query of a task ends.  If the request has been given up, the executor may
  have noticed it. -/
  | finish (index : Nat) (noticed : Bool)
  /-- A task puts its response into the channel. -/
  | send (index : Nat)
  /-- A task gives up. -/
  | drop (index : Nat)
  /-- The gatherer takes a response from the channel and files it. -/
  | receive
  /-- The gatherer stops because no task can send anything more. -/
  | desert
  /-- The gatherer stops because the request is given up. -/
  | stop
  /-- The gatherer stops because the deadline has passed. -/
  | expire
  /-- The caller gives the request up. -/
  | cancel
  | elapse
deriving DecidableEq

/-- The run of a query, whose executor notices or not that the request has been
given up. -/
def runOf (f : FanOut) (noticed : Bool) (request : QueryRequest) : QueryRun :=
  request.run f.executor f.dialect noticed

/-- Whether a task has sent its response or given up. -/
def Task.isOver : Task → Bool
  | .sent => true
  | .dropped => true
  | _ => false

/-- The state after a response was filed. -/
def file (f : FanOut) (s : State) (m : Message) (rest : List Message) : State :=
  { s with
    channel := rest
    results := s.results.insert m.1 m.2
    received := s.received + 1
    gatherer := if s.received + 1 < f.requests.length then .gathering else .complete }

/-- The state after something happened to a task. -/
def afterTask? (f : FanOut) (s : State) (index : Nat) (request : QueryRequest) :
    Event → Task → Option State
  | .begin _, .idle =>
    some { s with
      tasks := s.tasks.set index .working
      executed := s.executed ++ (f.runOf s.givenUp request).executed }
  | .finish _ noticed, .working =>
    if noticed && !s.givenUp then none
    else
      match (f.runOf noticed request).output with
      | .done output => some { s with tasks := s.tasks.set index (.finished (.ofOutput output)) }
      | .waiting => none
  | .send _, .finished response =>
    if s.channel.length < f.capacity then
      some { s with
        tasks := s.tasks.set index .sent
        channel := s.channel ++ [(request.refId, response)] }
    else none
  | .drop _, .finished _ =>
    if s.givenUp then some { s with tasks := s.tasks.set index .dropped } else none
  | _, _ => none

/-- The state after something happened to the task of an index, if there is one. -/
def afterTaskAt? (f : FanOut) (s : State) (index : Nat) (e : Event) : Option State :=
  match f.requests[index]?, s.tasks[index]? with
  | some request, some task => f.afterTask? s index request e task
  | _, _ => none

/-- The state after an event, if the event can happen. -/
def after? (f : FanOut) (s : State) (e : Event) : Option State :=
  match e with
  | .begin index => f.afterTaskAt? s index e
  | .finish index _ => f.afterTaskAt? s index e
  | .send index => f.afterTaskAt? s index e
  | .drop index => f.afterTaskAt? s index e
  | .receive =>
    match s.gatherer, s.channel with
    | .gathering, m :: rest => some (f.file s m rest)
    | _, _ => none
  | .desert =>
    if s.gatherer = .gathering ∧ s.channel = [] ∧ s.tasks.all Task.isOver then
      some { s with gatherer := .deserted }
    else none
  | .stop =>
    if s.gatherer = .gathering ∧ s.cancelled then some { s with gatherer := .cancelled } else none
  | .expire =>
    if s.gatherer = .gathering ∧ s.late then some { s with gatherer := .late } else none
  | .cancel => some { s with cancelled := true }
  | .elapse => some { s with late := true }

/-- The states that can come about. -/
inductive Reachable (f : FanOut) : State → Prop where
  /-- The first state. -/
  | start : Reachable f f.start
  /-- A state after an event. -/
  | step {s t : State} (e : Event) : Reachable f s → f.after? s e = some t → Reachable f t

/-! ## A run -/

/-- The state after events, of which those that cannot happen are left out. -/
def afterAll (f : FanOut) (s : State) (es : List Event) : State :=
  es.foldl (fun s e => (f.after? s e).getD s) s

theorem reachable_afterAll {f : FanOut} {s : State} (h : f.Reachable s) (es : List Event) :
    f.Reachable (f.afterAll s es) := by
  induction es generalizing s with
  | nil => exact h
  | cons e es ih =>
    refine ih ?_
    cases hs : f.after? s e with
    | none => simpa [hs] using h
    | some t => simpa [hs] using h.step e hs

/-- The events of the tasks when no task is held up: all begin, all end, all send
and all are received. -/
def undisturbed (f : FanOut) : List Event :=
  let indices := List.range f.requests.length
  indices.map .begin ++ indices.map (.finish · false) ++ indices.map .send ++ indices.map fun _ => .receive

/-- The events of a request.  One that is given up beforehand stops before a task
begins.  Otherwise the deadline passes after all that can end has ended. -/
def events (f : FanOut) (cancelled : Bool) : List Event :=
  if cancelled then [.cancel, .stop] else f.undisturbed ++ [.elapse, .expire]

/-- The last state of a request. -/
def outcome (f : FanOut) (cancelled : Bool) : State := f.afterAll f.start (f.events cancelled)

theorem reachable_outcome (f : FanOut) (cancelled : Bool) : f.Reachable (f.outcome cancelled) :=
  reachable_afterAll .start _

end FanOut

/-- The responses of a request as JSON. -/
def resultsToJson (results : SortedMap String DataResponse) : Json :=
  .object [("results", .object (results.entries.map fun e => (e.1, e.2.toJson)))]

end SeriesQuery
