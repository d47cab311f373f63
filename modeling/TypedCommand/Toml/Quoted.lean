import TypedCommand.Text

/-!
Quoted strings of a TOML document, in their four forms: basic or literal, on one line
or over several. Reading starts behind the opening quotes and ends behind the closing
ones. Writing takes the plainest form that holds the text.
-/

namespace TypedCommand

namespace Toml

def isControl (c : Char) : Bool := c.toNat < 0x20 || c.toNat == 0x7F

def isPlain (c : Char) : Bool := c == '\t' || !isControl c

def digitValue (c : Char) : Nat :=
  if c.isDigit then c.toNat - '0'.toNat else c.toLower.toNat - 'a'.toNat + 10

def isHexDigit (c : Char) : Bool := c.isDigit || ('a' ≤ c.toLower && c.toLower ≤ 'f')

def valueIn (base : Nat) (digits : Text) : Nat :=
  digits.foldl (fun n c => base * n + digitValue c) 0

def readCodePoint (count : Nat) (t : Text) : Option (Char × Text) :=
  let digits := t.take count
  let n := valueIn 16 digits
  if digits.length = count ∧ digits.all isHexDigit ∧ n.isValidChar then
    some (Char.ofNat n, t.drop count)
  else none

/-- The character that an escape stands for; the text begins behind the backslash. -/
def readEscape : Text → Option (Char × Text)
  | 'b' :: rest => some ('\x08', rest)
  | 't' :: rest => some ('\t', rest)
  | 'n' :: rest => some ('\n', rest)
  | 'f' :: rest => some ('\x0C', rest)
  | 'r' :: rest => some ('\r', rest)
  | 'e' :: rest => some ('\x1B', rest)
  | '"' :: rest => some ('"', rest)
  | '\\' :: rest => some ('\\', rest)
  | 'x' :: rest => readCodePoint 2 rest
  | 'u' :: rest => readCodePoint 4 rest
  | 'U' :: rest => readCodePoint 8 rest
  | _ => none

def readBasic : Nat → Text → Option (Text × Text)
  | 0, _ => none
  | _, [] => none
  | fuel + 1, c :: rest =>
    if c = '"' then some ([], rest)
    else if c = '\\' then do
      let (d, rest) ← readEscape rest
      let (value, rest) ← readBasic fuel rest
      return (d :: value, rest)
    else if isPlain c then do
      let (value, rest) ← readBasic fuel rest
      return (c :: value, rest)
    else none

def readLiteral : Text → Option (Text × Text)
  | [] => none
  | c :: rest =>
    if c = '\'' then some ([], rest)
    else if isPlain c then (readLiteral rest).map fun (value, rest) => (c :: value, rest)
    else none

/-- The end of a string over several lines: three quotes, before which up to two more
belong to the string. -/
def readClosing (quote : Char) (t : Text) : Option (Text × Text) :=
  let quotes := (t.takeWhile (· == quote)).length
  if quotes < 3 then none
  else
    let count := min quotes 5
    some (List.replicate (count - 3) quote, t.drop count)

/-- A newline at the front of a text, as one or two characters, and what follows. -/
def splitNewline : Text → Option (Text × Text)
  | '\n' :: rest => some (['\n'], rest)
  | '\r' :: '\n' :: rest => some (['\r', '\n'], rest)
  | _ => none

def isSpace (c : Char) : Bool := c == ' ' || c == '\t'

def skipSpaces (t : Text) : Text := t.dropWhile isSpace

def skipBlankLines : Text → Text
  | '\n' :: rest => skipBlankLines rest
  | '\r' :: '\n' :: rest => skipBlankLines rest
  | c :: rest => if isSpace c then skipBlankLines rest else c :: rest
  | [] => []

def skipLineBreak (t : Text) : Option Text :=
  match splitNewline (skipSpaces t) with
  | some (_, rest) => some (skipBlankLines rest)
  | none => none

def readMultilineBasic : Nat → Text → Option (Text × Text)
  | 0, _ => none
  | _, [] => none
  | fuel + 1, c :: rest =>
    match readClosing '"' (c :: rest) with
    | some result => some result
    | none =>
      if c = '\\' then
        match skipLineBreak rest with
        | some rest => readMultilineBasic fuel rest
        | none => do
          let (d, rest) ← readEscape rest
          let (value, rest) ← readMultilineBasic fuel rest
          return (d :: value, rest)
      else match splitNewline (c :: rest) with
        | some (newline, rest) => do
          let (value, rest) ← readMultilineBasic fuel rest
          return (newline ++ value, rest)
        | none =>
          if isPlain c then do
            let (value, rest) ← readMultilineBasic fuel rest
            return (c :: value, rest)
          else none

def readMultilineLiteral : Nat → Text → Option (Text × Text)
  | 0, _ => none
  | _, [] => none
  | fuel + 1, c :: rest =>
    match readClosing '\'' (c :: rest) with
    | some result => some result
    | none => match splitNewline (c :: rest) with
      | some (newline, rest) => do
        let (value, rest) ← readMultilineLiteral fuel rest
        return (newline ++ value, rest)
      | none =>
        if isPlain c then do
          let (value, rest) ← readMultilineLiteral fuel rest
          return (c :: value, rest)
        else none

def dropFirstNewline (t : Text) : Text :=
  match splitNewline t with
  | some (_, rest) => rest
  | none => t

def readString (t : Text) : Option (Text × Text) :=
  match t with
  | '"' :: '"' :: '"' :: rest => readMultilineBasic t.length (dropFirstNewline rest)
  | '"' :: rest => readBasic t.length rest
  | '\'' :: '\'' :: '\'' :: rest => readMultilineLiteral t.length (dropFirstNewline rest)
  | '\'' :: rest => readLiteral rest
  | _ => none

def readKeyString (t : Text) : Option (Text × Text) :=
  match t with
  | '"' :: rest => readBasic t.length rest
  | '\'' :: rest => readLiteral rest
  | _ => none

inductive StringForm
  | basic
  | literal
  | multilineBasic
  | multilineLiteral
deriving DecidableEq

def longestRun (quote : Char) (t : Text) : Nat :=
  ((Text.runs (· == quote) t).map List.length).foldl max 0

/-- Whether a text holds a character that only an escape can stand for, apart from the
backslash. -/
def needsEscape (t : Text) : Bool := t.any (fun c => !isPlain c && c != '\n')

/-- The form that a text is written in: the first that needs no escape, and a basic
string where none will do. -/
def StringForm.ofText (t : Text) : StringForm :=
  let newline := t.contains '\n'
  let backslash := t.contains '\\'
  let plain := !needsEscape t
  if plain && !backslash && !newline && !t.contains '"' then .basic
  else if plain && !newline && !t.contains '\'' then .literal
  else if plain && !backslash && longestRun '"' t ≤ 2 then .multilineBasic
  else if plain && longestRun '\'' t ≤ 2 then .multilineLiteral
  else if newline then .multilineBasic
  else .basic

def hexEscape (c : Char) : Text :=
  let digits := (Nat.toDigits 16 c.toNat).map Char.toUpper
  '\\' :: 'u' :: List.replicate (4 - digits.length) '0' ++ digits

/-- A character in a basic string, where `quotes` quotes stand directly before it and
`limit` may stand in a row. -/
def basicChar (multiline : Bool) (limit quotes : Nat) (c : Char) : Text :=
  if c = '"' then (if quotes < limit then ['"'] else "\\\"".toList)
  else if c = '\\' then "\\\\".toList
  else if c = '\t' then "\\t".toList
  else if c = '\n' then (if multiline then ['\n'] else "\\n".toList)
  else if c = '\x08' then "\\b".toList
  else if c = '\x0C' then "\\f".toList
  else if c = '\r' then "\\r".toList
  else if isControl c then hexEscape c
  else [c]

/-- A text between the quotes of a basic string; an escaped quote ends a row of them. -/
def basicBody (multiline : Bool) (limit : Nat) : Nat → Text → Text
  | _, [] => []
  | quotes, c :: rest =>
    basicChar multiline limit quotes c ++
      basicBody multiline limit (if c = '"' ∧ quotes < limit then quotes + 1 else 0) rest

/-- The newline behind opening quotes: it is written for a text that holds one. -/
def firstNewline (t : Text) : Text := if t.contains '\n' then ['\n'] else []

def StringForm.write (form : StringForm) (t : Text) : Text :=
  match form with
  | basic => '"' :: basicBody false 0 0 t ++ "\""
  | literal => '\'' :: t ++ "'"
  | multilineBasic => "\"\"\"" ++ firstNewline t ++ basicBody true 2 0 t ++ "\"\"\""
  | multilineLiteral => "'''" ++ firstNewline t ++ t ++ "'''"

def writeString (t : Text) : Text := (StringForm.ofText t).write t

def StringForm.ofKey (t : Text) : StringForm :=
  let plain := t.all isPlain
  if plain && !t.contains '\\' && !t.contains '"' then .basic
  else if plain && !t.contains '\'' then .literal
  else .basic

/-- A text as a key: bare if it is made of word characters. -/
def writeKey (t : Text) : Text :=
  if !t.isEmpty && t.all Text.isWordChar then t else (StringForm.ofKey t).write t

end Toml
end TypedCommand
