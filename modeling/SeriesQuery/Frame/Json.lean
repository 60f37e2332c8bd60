import SeriesQuery.Frame.Basic
import SeriesQuery.Json.Basic

/-!
# Frames as JSON

The form in which frames are sent: a field has its name, its labels if there are
any, its kind and its cells.  Instants are texts.  Doubles that JSON has no number
for are sent as null, like cells without a value.
-/

namespace SeriesQuery

def Kind.toJson : (k : Kind) → k.Value → Json
  | .string, s => .string s
  | .integer, n => .ofInt n.toInt
  | .float, x => .ofFloat x
  | .timestamp, t => .string (Rfc3339.write t)
  | .boolean, b => .bool b

def Column.toMembers (c : Column) : List (String × Json) :=
  [("type", .string c.kind.name), ("values", .array (c.cells.toList.map (.ofOption c.kind.toJson)))]

def Labels.toJson (labels : Labels) : Json :=
  .object (labels.entries.map fun e => (e.1, .string e.2))

def Field.toJson (f : Field) : Json :=
  let labels := if f.labels.isEmpty then [] else [("labels", Labels.toJson f.labels)]
  .object (("name", .string f.name) :: labels ++ f.column.toMembers)

def FrameNote.toJson (n : FrameNote) : Json :=
  .object [("type", .string n.type.name), ("executedQueryString", .string n.executed)]

def Frame.toJson (f : Frame) : Json :=
  .object ([("name", .string f.name), ("fields", .array (f.fields.map Field.toJson))] ++
    Json.optional "meta" FrameNote.toJson f.note)

end SeriesQuery
