import SeriesQuery.Frame.Json
import SeriesQuery.Query.Run

/-!
# Responses

What is sent for a query: its frame and, if it failed, the kind of the error and
the words for the user.  Every failure of a query has the same status.
`DataResponse.Carries` lists what is sent for an output, part by part.
-/

namespace SeriesQuery

/-- An error as it is sent. -/
structure ResponseError where
  /-- The status, that of a bad request. -/
  status : Nat
  kind : ErrorKind
  /-- The words for the user. -/
  message : String
  /-- The place of a fault. -/
  location : Option String
deriving DecidableEq

/-- The answer to a query as it is sent. -/
structure DataResponse where
  /-- The frames, of which there is one. -/
  frames : List Frame
  /-- The error, if the query failed. -/
  error : Option ResponseError
deriving DecidableEq

/-- The status of a failed query. -/
def ResponseError.badRequest : Nat := 400

/-- An error as it is sent. -/
def ResponseError.ofError (e : QueryError) : ResponseError :=
  ⟨badRequest, e.kind, e.userMessage, e.location?⟩

/-- The answer to a query as it is sent. -/
def DataResponse.ofOutput (o : QueryOutput) : DataResponse :=
  ⟨[o.frame], o.error.map .ofError⟩

/-- What is sent for an output. -/
structure DataResponse.Carries (r : DataResponse) (o : QueryOutput) : Prop where
  /-- The frame of the output is the only one. -/
  frames : r.frames = [o.frame]
  /-- There is no error without one of the output. -/
  error_none : o.error = none → r.error = none
  /-- An error has the status of a bad request, the kind and the words of that of the output, and
  the place of a fault. -/
  error_some : ∀ e, o.error = some e → ∃ sent, r.error = some sent ∧ sent.status = 400 ∧
    sent.kind = e.kind ∧ sent.message = e.userMessage ∧ sent.location = e.location?

theorem DataResponse.eq_ofOutput_iff {r : DataResponse} {o : QueryOutput} :
    r = .ofOutput o ↔ r.Carries o := by
  constructor
  · rintro rfl
    exact ⟨rfl, fun h => by rw [ofOutput, h]; rfl,
      fun e h => ⟨.ofError e, by rw [ofOutput, h]; rfl, rfl, rfl, rfl, rfl⟩⟩
  · intro h
    obtain ⟨frames, error⟩ := r
    obtain rfl : frames = [o.frame] := h.frames
    refine congrArg (DataResponse.mk [o.frame]) ?_
    cases ho : o.error with
    | none => exact h.error_none ho
    | some e =>
      obtain ⟨⟨status, kind, message, location⟩, hsent, rfl, rfl, rfl, rfl⟩ := h.error_some e ho
      exact hsent

def ResponseError.toJson (e : ResponseError) : Json :=
  .object ([("status", .ofNat e.status), ("kind", .string e.kind.name),
    ("message", .string e.message)] ++ Json.optional "location" Json.string e.location)

def DataResponse.toJson (r : DataResponse) : Json :=
  .object ([("frames", .array (r.frames.map Frame.toJson))] ++
    Json.optional "error" ResponseError.toJson r.error)

end SeriesQuery
