import SeriesQuery.FanOut.Basic
import SeriesQuery.Service.MediaType
import SeriesQuery.Service.Request

/-!
# The service over HTTP

There are two resources.  `/api/query` takes a request of queries and answers with
the responses of all; a query that fails does not change the status.  `/api/health`
says whether the executor answers at all.  Neither looks at the query string.
-/

namespace SeriesQuery

/-- A request as it arrives. -/
structure HttpRequest where
  method : String
  /-- The path with the query string. -/
  target : String
  /-- The media type of the body, if it is named. -/
  contentType : Option String
  body : String

/-- A response as it is sent. -/
structure HttpResponse where
  status : Nat
  /-- The body, if it is JSON. -/
  body : Option Json

/-- What becomes of a request. -/
inductive HttpReply where
  /-- It is answered. -/
  | sent (response : HttpResponse)
  /-- It ends with a fault of the executor. -/
  | fault (message : String)

/-- The service. -/
structure Service where
  /-- What answers statements. -/
  executor : Executor
  /-- The dialect of the statements. -/
  dialect : Dialect
  /-- How long the queries of a request may take. -/
  timeout : Span

namespace Service

/-- A response without a JSON body. -/
def refusal (status : Nat) : HttpReply := .sent ⟨status, none⟩

/-- The status of a body that could not be read. -/
def bodyStatus : BodyError → Nat
  | .malformed => 400
  | .unfit => 422

/-- Answers a request of queries. -/
def query (s : Service) (r : HttpRequest) : HttpReply :=
  if !(r.contentType.any MediaType.isJson) then refusal 415
  else
    match DataRequest.readFirst r.body with
    | .error e => refusal (bodyStatus e)
    | .ok request =>
      let fanOut : FanOut := ⟨request.toRequests, s.executor, s.dialect⟩
      .sent ⟨200, some (resultsToJson (fanOut.outcome false).results)⟩

/-- What the health check says. -/
def healthReply (status : Nat) (word message : String) : HttpReply :=
  .sent ⟨status, some (.object [("status", .string word), ("message", .string message)])⟩

/-- The health check has failed. -/
def unhealthy (message : String) : HttpReply := healthReply 503 "error" message

/-- Answers a health check. -/
def health (s : Service) : HttpReply :=
  match s.executor.answer Health.statement with
  | .waiting => unhealthy ("health check timed out after " ++ s.timeout.compact)
  | .failure e => unhealthy e.message
  | .fault f => .fault f.message
  | .rows result =>
    match Health.check result with
    | .ok () => healthReply 200 "ok" "Data source is working"
    | .error e => unhealthy e.message

/-- A reply without its body. -/
def withoutBody : HttpReply → HttpReply
  | .sent response => .sent { response with body := none }
  | .fault message => .fault message

/-- The path of a target. -/
def pathOf (target : String) : String :=
  String.ofList (target.toList.takeWhile fun c => c != '?' && c != '#')

/-- Answers a request. -/
def reply (s : Service) (r : HttpRequest) : HttpReply :=
  let path := pathOf r.target
  if path = "/api/query" then if r.method = "POST" then s.query r else refusal 405
  else if path = "/api/health" then
    if r.method = "GET" then s.health
    else if r.method = "HEAD" then withoutBody s.health
    else refusal 405
  else refusal 404

end Service

end SeriesQuery
