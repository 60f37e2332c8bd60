import SeriesQuery.Number.Numeral

/-!
# Media types

A media type is a type and a subtype with a slash between them, and parameters
behind a semicolon or a blank.  A subtype may end in a plus sign and a suffix.  A
body is taken for JSON if its media type is an application with JSON for its subtype
or its suffix; letters count in any case.
-/

namespace SeriesQuery.MediaType

/-- The signs that a token may have, besides letters and digits. -/
def tokenSigns : List Char := "!#$%&'*+-.^_\x60|~".toList

/-- Whether a character may stand in a token. -/
def isTokenChar (c : Char) : Bool := c.isAlphanum || c ∈ tokenSigns

/-- Whether a character may stand between quotation marks. -/
def isQuotedChar (c : Char) : Bool := 31 < c.toNat && c.toNat != 127

/-- The token at the front of a text, and the rest. -/
def token (cs : List Char) : List Char × List Char := (cs.takeWhile isTokenChar, cs.dropWhile isTokenChar)

/-- A media type. -/
structure Essence where
  main : List Char
  /-- The subtype without its suffix. -/
  sub : List Char
  suffix : Option (List Char)

/-! ## Parameters -/

/-- The text behind a quoted value: up to the next quotation mark, but a mark right
at its start counts as a character. -/
def behindQuoted? : List Char → Option (List Char)
  | [] => none
  | first :: cs =>
    if isQuotedChar first then
      match cs.dropWhile fun c => isQuotedChar c && c != '\x22' with
      | '\x22' :: rest => some rest
      | _ => none
    else none

/-- The text behind the semicolon after a quoted value, or none of it. -/
def behindBlanks? (cs : List Char) : Option (List Char) :=
  match cs.dropWhile (· == ' ') with
  | [] => some []
  | ';' :: rest => some rest
  | _ => none

/-- The text behind a parameter and its semicolon. -/
def behindParameter? (cs : List Char) : Option (List Char) :=
  match token cs with
  | ([], _) => none
  | (_, '=' :: '\x22' :: value) => (behindQuoted? value).bind behindBlanks?
  | (_, '=' :: value) =>
    match token value with
    | (_, []) => some []
    | ([], _) => none
    | (_, ';' :: rest) => some rest
    | _ => none
  | _ => none

/-- Whether a text is a list of parameters, each with blanks before it.  `fuel`
bounds their number. -/
def areParameters : (fuel : Nat) → List Char → Bool
  | 0, _ => false
  | fuel + 1, cs =>
    match cs.dropWhile (· == ' ') with
    | [] => true
    | cs => ((behindParameter? cs).map (areParameters fuel)).getD false

/-! ## Types -/

/-- Splits a subtype at its last plus sign that is not its first character. -/
def splitSuffix (cs : List Char) : List Char × Option (List Char) :=
  let suffix := (cs.reverse.takeWhile (· != '+')).reverse
  let before := cs.take (cs.length - suffix.length - 1)
  if suffix.length = cs.length ∨ before = [] then (cs, none) else (before, some suffix)

/-- Reads a media type. -/
def read? (cs : List Char) : Option Essence :=
  match token cs with
  | ([], _) => none
  | (main, '/' :: cs) =>
    let (subtype, rest) := token cs
    let (sub, suffix) := splitSuffix subtype
    match rest with
    | [] => some ⟨main, sub, suffix⟩
    | c :: rest =>
      if subtype ≠ [] ∧ (c = ';' ∨ c = ' ') ∧ areParameters (rest.length + 1) rest then
        some ⟨main, sub, suffix⟩
      else none
  | _ => none

/-- Whether a body of a media type is taken for JSON. -/
def isJson (mediaType : String) : Bool :=
  let cs := mediaType.toList
  let json := "json".toList
  match if cs.all (·.toNat < 127) then read? cs else none with
  | some e =>
    Numeral.lower e.main == "application".toList &&
      (Numeral.lower e.sub == json || e.suffix.map Numeral.lower == some json)
  | none => false

end SeriesQuery.MediaType
