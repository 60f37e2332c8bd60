import SeriesQuery.Number.Digits

/-!
# Texts and keys of TOML

A text stands between quotation marks, with escapes, or between apostrophes,
without.  Three marks make a text of several lines, of which a line break right at
the start is dropped; up to two marks may stand right before the three at the end.
In a text of several lines with escapes a backslash at the end of a line drops the
line break and all blanks after it.  A line break in a text is a line feed.

Control characters may stand nowhere but the tab.
-/

namespace SeriesQuery.Toml

/-- A blank inside a line. -/
def isBlank (c : Char) : Bool := c == ' ' || c == '\t'

def skipBlanks (cs : List Char) : List Char := cs.dropWhile isBlank

/-- Whether a character may stand in a text or a comment. -/
def isPrintable (c : Char) : Bool := c == '\t' || (32 ≤ c.toNat && c.toNat != 127)

/-- The text behind a line break. -/
def behindBreak? : List Char → Option (List Char)
  | '\n' :: cs => some cs
  | '\r' :: '\n' :: cs => some cs
  | _ => none

/-- Drops a line break, if there is one. -/
def dropBreak (cs : List Char) : List Char := (behindBreak? cs).getD cs

/-- Drops a comment and the blanks before it. -/
def skipComment (cs : List Char) : List Char :=
  match skipBlanks cs with
  | '#' :: rest => rest.dropWhile isPrintable
  | rest => rest

/-- The text behind the end of a line, or nothing of it at the end of the text. -/
def endLine? (cs : List Char) : Option (List Char) :=
  match skipComment cs with
  | [] => some []
  | rest => behindBreak? rest

/-- Drops blanks, comments and line breaks.  `fuel` bounds the lines. -/
def skipLines : (fuel : Nat) → List Char → List Char
  | 0, cs => cs
  | fuel + 1, cs =>
    match behindBreak? (skipComment cs) with
    | some rest => skipLines fuel rest
    | none => skipBlanks cs

/-! ## Escapes -/

def hexValue? (c : Char) : Option Nat :=
  if c.isDigit then some (c.toNat - '0'.toNat)
  else if 'a' ≤ c ∧ c ≤ 'f' then some (c.toNat - 'a'.toNat + 10)
  else if 'A' ≤ c ∧ c ≤ 'F' then some (c.toNat - 'A'.toNat + 10)
  else none

/-- The number of hexadecimal digits. -/
def hexNumber? (cs : List Char) : Option Nat :=
  cs.foldlM (fun n c => (hexValue? c).map (n * 16 + ·)) 0

/-- The character of a number, if it has one. -/
def scalar? (n : Nat) : Option Char := if n.isValidChar then some (Char.ofNat n) else none

/-- The character of `count` hexadecimal digits, and the rest. -/
def hexChar? (count : Nat) (cs : List Char) : Option (Char × List Char) :=
  if cs.length < count then none
  else (hexNumber? (cs.take count)).bind fun n => (scalar? n).map fun c => (c, cs.drop count)

/-- The character of an escape, behind its backslash, and the rest. -/
def escape? : List Char → Option (Char × List Char)
  | [] => none
  | c :: cs =>
    if c = '\x22' ∨ c = '\\' then some (c, cs)
    else if c = 'b' then some ('\x08', cs)
    else if c = 't' then some ('\t', cs)
    else if c = 'n' then some ('\n', cs)
    else if c = 'f' then some ('\x0c', cs)
    else if c = 'r' then some ('\r', cs)
    else if c = 'u' then hexChar? 4 cs
    else if c = 'U' then hexChar? 8 cs
    else none

/-- Drops blanks and line breaks.  `fuel` bounds the lines. -/
def skipBreaks : (fuel : Nat) → List Char → List Char
  | 0, cs => cs
  | fuel + 1, cs =>
    match behindBreak? (skipBlanks cs) with
    | some rest => skipBreaks fuel rest
    | none => skipBlanks cs

/-- The text behind a backslash at the end of a line: what comes after the blanks
and line breaks that follow. -/
def behindLineEnd? (cs : List Char) : Option (List Char) :=
  (behindBreak? (skipBlanks cs)).map fun rest => skipBreaks (rest.length + 1) rest

/-! ## Texts -/

/-- Reads a text to its closing mark.  `fuel` bounds the characters. -/
def lineText? (mark : Char) (read : List Char) : (fuel : Nat) → List Char → Option (String × List Char)
  | 0, _ => none
  | _, [] => none
  | fuel + 1, c :: cs =>
    if c = mark then some (String.ofList read.reverse, cs)
    else if c = '\\' ∧ mark = '\x22' then
      match escape? cs with
      | some (e, rest) => lineText? mark (e :: read) fuel rest
      | none => none
    else if isPrintable c then lineText? mark (c :: read) fuel cs
    else none

/-- Reads a text of several lines to its three closing marks.  `fuel` bounds the
characters. -/
def blockText? (mark : Char) (read : List Char) : (fuel : Nat) → List Char → Option (String × List Char)
  | 0, _ => none
  | _, [] => none
  | fuel + 1, c :: cs =>
    if c = mark then
      let run := (c :: cs).takeWhile (· == mark)
      let taken := min run.length 5
      if taken < 3 then
        blockText? mark (List.replicate taken mark ++ read) fuel ((c :: cs).drop taken)
      else
        some (String.ofList (List.replicate (taken - 3) mark ++ read).reverse, (c :: cs).drop taken)
    else if c = '\\' ∧ mark = '\x22' then
      match behindLineEnd? cs with
      | some rest => blockText? mark read fuel rest
      | none =>
        match escape? cs with
        | some (e, rest) => blockText? mark (e :: read) fuel rest
        | none => none
    else
      match behindBreak? (c :: cs) with
      | some rest => blockText? mark ('\n' :: read) fuel rest
      | none => if isPrintable c then blockText? mark (c :: read) fuel cs else none

/-- Reads a text behind its first mark.  Three marks start a text of several lines,
and two are an empty one. -/
def text? (mark : Char) (cs : List Char) : Option (String × List Char) :=
  match cs with
  | a :: b :: rest =>
    if a = mark ∧ b = mark then blockText? mark [] (rest.length + 1) (dropBreak rest)
    else lineText? mark [] (cs.length + 1) cs
  | cs => lineText? mark [] (cs.length + 1) cs

/-! ## Keys -/

/-- Whether a character may stand in a key without marks. -/
def isKeyChar (c : Char) : Bool := c.isAlphanum || c == '_' || c == '-'

/-- Reads a key without dots. -/
def simpleKey? (cs : List Char) : Option (String × List Char) :=
  match cs with
  | '\x22' :: rest => lineText? '\x22' [] (rest.length + 1) rest
  | '\x27' :: rest => lineText? '\x27' [] (rest.length + 1) rest
  | cs =>
    let name := cs.takeWhile isKeyChar
    if name = [] then none else some (String.ofList name, cs.dropWhile isKeyChar)

/-- Reads a key with dots, as the path of its parts, with the blanks around it.
`fuel` bounds the parts. -/
def keyPath? : (fuel : Nat) → List Char → Option (List String × List Char)
  | 0, _ => none
  | fuel + 1, cs => do
    let (name, rest) ← simpleKey? (skipBlanks cs)
    match skipBlanks rest with
    | '.' :: rest =>
      let (names, rest) ← keyPath? fuel rest
      some (name :: names, rest)
    | rest => some ([name], rest)

/-- Nothing nests deeper than this. -/
def maxDepth : Nat := 79

def key? (cs : List Char) : Option (List String × List Char) := keyPath? maxDepth cs

end SeriesQuery.Toml
