import SeriesQuery.Expansion.Arguments
import SeriesQuery.Expansion.Call
import SeriesQuery.Expansion.Dialect
import SeriesQuery.Expansion.Error

/-!
# Expanding macro calls

Every call in a query text is replaced by the fragment of SQL it stands for, and
all other text stays as it is.  The first call that is ill-formed ends the
expansion with its error.

The expansion carries a context.  It starts with the range of the request and
the interval that was asked for.  The one call that may ask for buckets puts its
own width in the place of that interval and, if it names a fill mode, sets the
policy by which missing buckets are filled later.
-/

namespace SeriesQuery

/-- What an expansion knows and what it finds out. -/
structure ExpansionContext where
  range : TimeRange
  /-- The width of the buckets, at first the interval that was asked for. -/
  interval : Span
  /-- The fill mode of the call for buckets, if it has one. -/
  fill : Option FillPolicy
  /-- Whether there was a call for buckets. -/
  bucketUsed : Bool
deriving DecidableEq

namespace ExpansionContext

/-- The context of a request before any call. -/
def fresh (range : TimeRange) (interval : Span) : ExpansionContext :=
  ⟨range, interval, none, false⟩

end ExpansionContext

namespace Expansion

/-- A quotation mark, single or double. -/
def isQuote (c : Char) : Bool := c == '\x27' || c == '\x22'

/-- Drops the quotation marks at both ends. -/
def unquote (cs : List Char) : List Char :=
  ((cs.dropWhile isQuote).reverse.dropWhile isQuote).reverse

/-- Reads the width of buckets, with or without quotation marks around it. -/
def readWidth (cs : List Char) : Except ExpansionError Span :=
  let invalid (reason : WidthError) : Except ExpansionError Span :=
    .error (.invalidWidth (String.ofList cs) reason)
  match Span.read (unquote cs) with
  | .error reason => invalid (.unreadable reason)
  | .ok width => if width.isWholeSeconds then .ok width else invalid .notWholeSeconds

/-- Reads the fill mode that follows the required arguments, if there is one. -/
def readFill : List (List Char) → Except ExpansionError (Option FillPolicy)
  | [] => .ok none
  | mode :: _ =>
    match FillPolicy.read? mode with
    | some policy => .ok (some policy)
    | none => .error (.invalidFill (String.ofList mode))

/-- The fragment of a macro with its arguments, and the context after it. -/
def fragment (d : Dialect) (ctx : ExpansionContext) (m : TimeMacro) (args : List (List Char)) :
    Except ExpansionError (String × ExpansionContext) :=
  let column := String.ofList (args.headD [])
  match m with
  | .column => .ok (d.timeColumn column, ctx)
  | .rangeStart => .ok (d.timestampLiteral ctx.range.start, ctx)
  | .rangeStop => .ok (d.timestampLiteral ctx.range.stop, ctx)
  | .filter => .ok (d.timeFilter column ctx.range, ctx)
  | .bucket =>
    if ctx.bucketUsed then .error .secondBucket
    else do
      let width ← readWidth (args.getD 1 [])
      let fill ← readFill (args.drop 2)
      .ok (d.timeBucket column width.seconds,
        { ctx with bucketUsed := true, interval := width, fill := fill.or ctx.fill })

/-- What a required argument is, if it is the first empty one. -/
def missing? (m : TimeMacro) (args : List (List Char)) : Option String :=
  ((args.zip m.required).find? fun arg => arg.1 == []).map (·.2)

/-- Expands a call: its name is looked up, its arguments are counted, then none
of the required ones may be empty. -/
def expandCall (d : Dialect) (ctx : ExpansionContext) (call : Call) :
    Except ExpansionError (String × ExpansionContext) :=
  let args := Arguments.ofText call.arguments
  match TimeMacro.ofName? call.name with
  | none => .error (.unknownName (String.ofList call.name))
  | some m =>
    if m.takes args.length then
      match missing? m args with
      | some argument => .error (.missingArgument m argument)
      | none => fragment d ctx m args
    else .error (.arity m args.length)

/-- Expands the pieces of a text from left to right. -/
def expandPieces (d : Dialect) (ctx : ExpansionContext) :
    List Piece → Except ExpansionError (List Char × ExpansionContext)
  | [] => .ok ([], ctx)
  | .char c :: pieces => do
    let (sql, ctx) ← expandPieces d ctx pieces
    .ok (c :: sql, ctx)
  | .call call :: pieces => do
    let (text, ctx) ← expandCall d ctx call
    let (sql, ctx) ← expandPieces d ctx pieces
    .ok (text.toList ++ sql, ctx)

/-- Expands a query text. -/
def expand (d : Dialect) (ctx : ExpansionContext) (raw : String) :
    Except ExpansionError (String × ExpansionContext) :=
  (expandPieces d ctx (Piece.ofText raw.toList)).map fun (sql, ctx) => (String.ofList sql, ctx)

end Expansion

end SeriesQuery
