import SeriesQuery.Json.Outline
import SeriesQuery.Query.Request
import SeriesQuery.Time.Rfc3339

/-!
# The body of a request

A body names a range and the queries to be run over it.  A record is given as an
object, whose members may be in any order and of which the unknown ones are passed
over, or as a sequence of its members in their order.

Reading goes from left to right and ends at the first error.  A body that is no
JSON there is malformed; one that is JSON, but not what is asked for, is unfit.
So an unfit value hides a fault of the text behind it.  That a member is missing
is noticed at the end of its record.
-/

namespace SeriesQuery

/-- What is wrong with a body. -/
inductive BodyError where
  /-- It is no JSON. -/
  | malformed
  /-- It is not what is asked for. -/
  | unfit
deriving DecidableEq

/-- Reading a part of a body. -/
abbrev BodyReader (α : Type) := Outline → Except BodyError α

/-- A query of a body. -/
structure DataQuery where
  /-- The name of its answer. -/
  refId : String
  text : String
  /-- The form of the rows. -/
  format : DataFormat
  /-- The interval in milliseconds. -/
  intervalMs : UInt64
deriving DecidableEq

/-- A body. -/
structure DataRequest where
  range : TimeRange
  queries : List DataQuery
deriving DecidableEq

/-- The queries of a body, each with the range. -/
def DataRequest.toRequests (r : DataRequest) : List QueryRequest :=
  r.queries.map fun q => ⟨q.refId, q.text, r.range, .ofMillis q.intervalMs, q.format⟩

namespace BodyReader

/-! ## Values -/

/-- The error of a value of the wrong type.  Containers are not read for it, and a
value that cannot be read has no type. -/
def mismatch : Outline → BodyError
  | .fault => .malformed
  | .string none => .malformed
  | .number parts => if parts.outOfRange then .malformed else .unfit
  | _ => .unfit

def text : BodyReader String
  | .string (some s) => .ok s
  | v => .error (mismatch v)

def instant : BodyReader Instant
  | .string (some s) =>
    match Rfc3339.read? s.toList with
    | some t => .ok t
    | none => .error .unfit
  | v => .error (mismatch v)

def natural : BodyReader UInt64
  | .number parts =>
    match parts.natural? with
    | some n => .ok n
    | none => .error (mismatch (.number parts))
  | v => .error (mismatch v)

/-- Reads a form of rows by its name.  No name stands for a time series. -/
def formatName : BodyReader DataFormat
  | .string (some s) =>
    if s = "" ∨ s = DataFormat.timeseries.name then .ok .timeseries
    else if s = DataFormat.table.name then .ok .table
    else .error .unfit
  | v => .error (mismatch v)

/-- Reads a form of rows: its name, or an object whose only member has the name
and the value `null`.  A value of another type is malformed. -/
def format : BodyReader DataFormat
  | .string s => formatName (.string s)
  | .object [] _ => .error .malformed
  | .object ((name, v) :: others) closed =>
    match formatName name, v with
    | .error e, _ => .error e
    | .ok f, .null => if others.isEmpty && closed then .ok f else .error .malformed
    | .ok _, v => .error (mismatch v)
  | _ => .error .malformed

/-! ## Records -/

/-- A member of a record that is put together in a draft. -/
structure Slot (δ : Type) where
  name : String
  /-- Whether the draft has the member. -/
  isSet : δ → Bool
  /-- Reads the member into the draft. -/
  set : δ → BodyReader δ

/-- A member that a draft may have, by its look-up and its update. -/
def Slot.ofLens (name : String) (get : δ → Option α) (put : δ → α → δ) (read : BodyReader α) :
    Slot δ where
  name := name
  isSet d := (get d).isSome
  set d v := (read v).map (put d)

/-- Passes over a value. -/
def ignore : BodyReader Unit
  | .fault => .error .malformed
  | .array _ false => .error .malformed
  | .object _ false => .error .malformed
  | _ => .ok ()

/-- Reads a member of an object into a draft. -/
def member (slots : List (Slot δ)) (d : δ) (name : String) (v : Outline) : Except BodyError δ :=
  match slots.find? fun s => s.name == name with
  | some slot => if slot.isSet d then .error .unfit else slot.set d v
  | none => (ignore v).map fun _ => d

/-- Reads the members of an object into a draft. -/
def members (slots : List (Slot δ)) (closed : Bool) (d : δ) :
    List (Outline × Outline) → Except BodyError δ
  | [] => if closed then .ok d else .error .malformed
  | (.string (some name), v) :: rest =>
    match member slots d name v with
    | .ok d => members slots closed d rest
    | .error e => .error e
  | _ => .error .malformed

/-- Reads the items of a sequence into a draft, in the order of the slots. -/
def items (closed : Bool) : List (Slot δ) → δ → List Outline → Except BodyError δ
  | _, d, [] => if closed then .ok d else .error .malformed
  | [], _, _ :: _ => .error .malformed
  | slot :: slots, d, v :: rest =>
    match slot.set d v with
    | .ok d => items closed slots d rest
    | .error e => .error e

/-- Reads a record through a draft.  `finish` makes the record of the draft, unless
a member is missing. -/
def record (slots : List (Slot δ)) (blank : δ) (finish : δ → Option α) : BodyReader α := fun v =>
  let draft :=
    match v with
    | .object ms closed => members slots closed blank ms
    | .array vs closed => items closed slots blank vs
    | v => .error (mismatch v)
  draft.bind fun d =>
    match finish d with
    | some a => .ok a
    | none => .error .unfit

/-- Reads the items of a sequence one after the other. -/
def each (read : BodyReader α) (closed : Bool) : List Outline → Except BodyError (List α)
  | [] => if closed then .ok [] else .error .malformed
  | v :: vs =>
    match read v with
    | .error e => .error e
    | .ok a => (each read closed vs).map (a :: ·)

/-- Reads a sequence. -/
def sequence (read : BodyReader α) : BodyReader (List α)
  | .array vs closed => each read closed vs
  | v => .error (mismatch v)

/-! ## The records of a body -/

/-- A range of which members are missing. -/
structure RangeDraft where
  start : Option Instant
  stop : Option Instant

def range : BodyReader TimeRange :=
  record
    [.ofLens "from" RangeDraft.start (fun d t => { d with start := some t }) instant,
      .ofLens "to" RangeDraft.stop (fun d t => { d with stop := some t }) instant]
    ⟨none, none⟩
    fun d => do some ⟨← d.start, ← d.stop⟩

/-- A query of which members are missing. -/
structure QueryDraft where
  /-- The name of its answer. -/
  refId : Option String
  text : Option String
  /-- The form of the rows. -/
  format : Option DataFormat
  /-- The interval in milliseconds. -/
  intervalMs : Option UInt64

/-- Reads a query.  Without a form it asks for a time series, and without an
interval for none. -/
def query : BodyReader DataQuery :=
  record
    [.ofLens "refId" QueryDraft.refId (fun d s => { d with refId := some s }) text,
      .ofLens "queryText" QueryDraft.text (fun d s => { d with text := some s }) text,
      .ofLens "dataFormat" QueryDraft.format (fun d f => { d with format := some f }) format,
      .ofLens "intervalMs" QueryDraft.intervalMs (fun d n => { d with intervalMs := some n }) natural]
    ⟨none, none, none, none⟩
    fun d => do
      some ⟨← d.refId, ← d.text, d.format.getD .timeseries, d.intervalMs.getD 0⟩

/-- A body of which members are missing. -/
structure RequestDraft where
  range : Option TimeRange
  queries : Option (List DataQuery)

def request : BodyReader DataRequest :=
  record
    [.ofLens "range" RequestDraft.range (fun d r => { d with range := some r }) range,
      .ofLens "queries" RequestDraft.queries (fun d l => { d with queries := some l })
        (sequence query)]
    ⟨none, none⟩
    fun d => do some ⟨← d.range, ← d.queries⟩

end BodyReader

/-- Reads the first value of a text as a body, whatever follows it. -/
def DataRequest.readFirst (body : String) : Except BodyError DataRequest :=
  BodyReader.request (JsonText.read body).root

/-- Reads a body.  Text behind its value is a fault. -/
def DataRequest.read (body : String) : Except BodyError DataRequest :=
  match DataRequest.readFirst body with
  | .error e => .error e
  | .ok r => if (JsonText.read body).ends then .ok r else .error .malformed

end SeriesQuery
