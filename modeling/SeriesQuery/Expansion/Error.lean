import SeriesQuery.Expansion.TimeMacro
import SeriesQuery.FillPolicy
import SeriesQuery.Time.Span.Reader

/-!
# Ill-formed calls

Why a call cannot be expanded, and the words for it.
-/

namespace SeriesQuery

/-- Why a text is no bucket width. -/
inductive WidthError where
  /-- It is no span of time. -/
  | unreadable (reason : Span.ReadError)
  /-- It is less than a second or has a fraction of one. -/
  | notWholeSeconds
deriving DecidableEq

def WidthError.message : WidthError → String
  | .unreadable reason => reason.message
  | .notWholeSeconds => "must be a whole number of seconds"

/-- Why a call cannot be expanded. -/
inductive ExpansionError where
  /-- No macro has the name. -/
  | unknownName (name : String)
  /-- The macro does not take so many arguments. -/
  | arity (called : TimeMacro) (found : Nat)
  /-- A required argument is empty. -/
  | missingArgument (called : TimeMacro) (argument : String)
  /-- The width of the buckets cannot be used. -/
  | invalidWidth (text : String) (reason : WidthError)
  /-- The fill mode is no policy. -/
  | invalidFill (text : String)
  /-- A second call asks for buckets. -/
  | secondBucket
deriving DecidableEq

def ExpansionError.message : ExpansionError → String
  | .unknownName name => "unsupported macro [$" ++ name ++ "]"
  | .arity called found =>
    "macro [$" ++ called.name ++ "] takes " ++ called.arity ++ " argument(s), got " ++
      toString found
  | .missingArgument called argument =>
    "macro [$" ++ called.name ++ "] is missing its " ++ argument ++ " argument"
  | .invalidWidth text reason => "invalid interval [" ++ text ++ "]: " ++ reason.message
  | .invalidFill text => FillPolicy.invalidMessage text
  | .secondBucket => "macro [$__timeGroup] can only be used once per query"

end SeriesQuery
