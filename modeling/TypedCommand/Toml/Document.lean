import TypedCommand.Toml.Node

/-!
The text of a TOML document. Reading gives its statements, one or more lines each, and
writing puts every statement on a line of its own, with an empty line before a header.
-/

namespace TypedCommand

namespace Toml

/-- What follows a comment, which ends with its line and holds no control character. -/
def afterComment? (t : Text) : Option Text :=
  let isEnd (c : Char) : Bool := c == '\n' || c == '\r'
  if (t.takeWhile (fun c => !isEnd c)).all isPlain then some (t.dropWhile (fun c => !isEnd c))
  else none

def afterLine? (t : Text) : Option Text :=
  let t := skipSpaces t
  let t? := if t.head? = some '#' then afterComment? t else some t
  match t? with
  | some [] => some []
  | some t => (splitNewline t).map Prod.snd
  | none => none

def afterGap? : Nat → Text → Option Text
  | 0, _ => none
  | fuel + 1, t =>
    let t := skipSpaces t
    match splitNewline t with
    | some (_, rest) => afterGap? fuel rest
    | none => if t.head? = some '#' then afterComment? t >>= afterGap? fuel else some t

def readKeyPart (t : Text) : Option (Text × Text) :=
  match readKeyString t with
  | some result => some result
  | none =>
    let key := t.takeWhile Text.isWordChar
    if key.isEmpty then none else some (key, t.dropWhile Text.isWordChar)

/-- The number of parts that a key can have, and of brackets that can be open at once. -/
def depthLimit : Nat := 80

def readKeyParts : Nat → Text → Option (List Text × Text)
  | 0, _ => none
  | room + 1, t => do
    let (key, rest) ← readKeyPart (skipSpaces t)
    match skipSpaces rest with
    | '.' :: rest => do
      let (path, rest) ← readKeyParts room rest
      return (key :: path, rest)
    | rest => return ([key], rest)

def readKey (t : Text) : Option (List Text × Text) := readKeyParts depthLimit t

mutual

/-- A value at the front of a text, in which `room` more brackets can be opened. -/
def readValue : Nat → Nat → Text → Option (Node × Text)
  | 0, _, _ => none
  | fuel + 1, room, t => match t, room with
    | '[' :: _, 0 => none
    | '{' :: _, 0 => none
    | '[' :: rest, room + 1 => do
      let (items, rest) ← readItems fuel room rest
      return (.array items, rest)
    | '{' :: rest, room + 1 => do
      let (entries, rest) ← readPairs fuel room [] rest
      return (.table .inline entries, rest)
    | _, _ => (Scalar.read t).map fun (value, rest) => (.scalar value, rest)

/-- The items of an array up to its closing bracket. A comma may follow the last. -/
def readItems : Nat → Nat → Text → Option (List Node × Text)
  | 0, _, _ => none
  | fuel + 1, room, t => do
    match ← afterGap? (t.length + 1) t with
    | ']' :: rest => return ([], rest)
    | t => do
      let (item, rest) ← readValue fuel room t
      match ← afterGap? (rest.length + 1) rest with
      | ',' :: rest => do
        let (items, rest) ← readItems fuel room rest
        return (item :: items, rest)
      | ']' :: rest => return ([item], rest)
      | _ => none

/-- The entries of an inline table up to its closing brace, after earlier ones. Line
ends and comments can stand anywhere between them, but not inside a key. -/
def readPairs : Nat → Nat → Entries → Text → Option (Entries × Text)
  | 0, _, _, _ => none
  | fuel + 1, room, entries, t => do
    match ← afterGap? (t.length + 1) t with
    | '}' :: rest => return (entries, rest)
    | t => do
      let (path, rest) ← readKey t
      let key ← path.getLast?
      match ← afterGap? (rest.length + 1) rest with
      | '=' :: rest => do
        let (value, rest) ← readValue fuel room (← afterGap? (rest.length + 1) rest)
        let entries ← Entries.insertPair path.dropLast key value .header entries
        match ← afterGap? (rest.length + 1) rest with
        | ',' :: rest => readPairs fuel room entries rest
        | '}' :: rest => return (entries, rest)
        | _ => none
      | _ => none

end

def readHeader (closing : Text) (t : Text) : Option (List Text × Text) := do
  let (path, rest) ← readKey t
  if closing.isPrefixOf rest then return (path, rest.drop closing.length) else none

def readStatement (t : Text) : Option (Statement × Text) :=
  match t with
  | '[' :: '[' :: rest => do
    let (path, rest) ← readHeader "]]" rest
    return (.arrayHeader path, ← afterLine? rest)
  | '[' :: rest => do
    let (path, rest) ← readHeader "]" rest
    return (.header path, ← afterLine? rest)
  | _ => do
    let (path, rest) ← readKey t
    match rest with
    | '=' :: rest => do
      let (value, rest) ← readValue (t.length + 1) depthLimit (skipSpaces rest)
      return (.pair path value, ← afterLine? rest)
    | _ => none

def readStatements : Nat → Text → Option (List Statement)
  | 0, _ => none
  | fuel + 1, t => do
    match ← afterGap? (t.length + 1) t with
    | [] => return []
    | t => do
      let (statement, rest) ← readStatement t
      return statement :: (← readStatements fuel rest)

/-- The entries of a document. A byte order mark may stand in front. -/
def read? (t : Text) : Option Entries :=
  let t := if t.head? = some '\uFEFF' then t.drop 1 else t
  readStatements (t.length + 1) t >>= Entries.ofStatements

def writePath (path : List Text) : Text := ['.'].intercalate (path.map writeKey)

mutual

def writeValue : Node → Text
  | .scalar value => value.write
  | .array items => '[' :: [',', ' '].intercalate (writeItems items) ++ "]"
  | .tables items => '[' :: [',', ' '].intercalate (writeTables items) ++ "]"
  | .table _ entries => '{' :: [',', ' '].intercalate (writePairs entries) ++ "\x7d"

def writeItems : List Node → List Text
  | [] => []
  | item :: rest => writeValue item :: writeItems rest

def writeTables : List (List (Text × Node)) → List Text
  | [] => []
  | entries :: rest =>
    ('{' :: [',', ' '].intercalate (writePairs entries) ++ "\x7d") :: writeTables rest

def writePairs : List (Text × Node) → List Text
  | [] => []
  | (key, value) :: rest => (writeKey key ++ " = " ++ writeValue value) :: writePairs rest

end

def Statement.write : Statement → Text
  | header path => '[' :: writePath path ++ "]\n"
  | arrayHeader path => "[[" ++ writePath path ++ "]]\n"
  | pair path value => writePath path ++ " = " ++ writeValue value ++ "\n"

def Statement.isHeader : Statement → Bool
  | pair .. => false
  | _ => true

def writeStatements (statements : List Statement) : Text :=
  statements.flatMap fun s => if s.isHeader then '\n' :: s.write else s.write

def writeDocument : List Statement → Text
  | [] => []
  | s :: rest => s.write ++ writeStatements rest

end Toml
end TypedCommand
