import TypedCommand.Regex
import TypedCommand.Shell.Arithmetic
import TypedCommand.Tool.Call

/-!
Editing scripts. A script is a list of commands, each of which applies to the lines that its
addresses select. A script that has no meaning is reported with the number of characters that
have been read.
-/

namespace TypedCommand

namespace Tool

namespace Edit

/-- How a pattern is matched: whether the two spellings of a letter count as one, and whether
each line of the text begins and ends like the text. -/
structure Manner where
  ignoresCase : Bool := false
  hasLines : Bool := false

inductive Spot
  | line (n : Nat)
  | step (first interval : Nat)
  | last
  | like (pattern : Option Regex) (manner : Manner)

/-- Where a range ends: at a spot, a number of lines on, or at a multiple of a number. -/
inductive Until
  | spot (s : Spot)
  | plus (n : Nat)
  | multiple (n : Nat)

/-- A part of what takes the place of a match: text, a group, or a change of the letters
that follow. -/
inductive Piece
  | text (t : Text)
  | group (n : Nat)
  | letters (change : Char)

/-- A replacement of matches: the pattern, what takes their place, the first match that is
replaced, and what is done afterwards. -/
structure Substitution where
  pattern : Option Regex
  manner : Manner := {}
  pieces : List Piece := []
  everywhere : Bool := false
  index : Nat := 1
  prints : Bool := false
  file : Option Text := none

/-- What a command does; those without an argument are told apart by their letters. -/
inductive Action
  | letter (c : Char)
  | block (behind : Nat)
  | substitute (s : Substitution)
  | translate (pairs : List (Char × Char))
  | text (kind : Char) (t : Text)
  | jump (kind : Char) (label : Text)
  | label (name : Text)
  | quit (prints : Bool) (status : Nat)
  | file (kind : Char) (name : Text)

structure Instruction where
  first : Option Spot := none
  last : Option Until := none
  negated : Bool := false
  action : Action

/-- Why a script has no meaning, and how far it has been read. -/
structure Fault where
  position : Nat
  text : Text

/-- The text that remains of a script, and the number of the characters before it. -/
structure Source where
  rest : Text
  position : Nat := 0
  extended : Bool := false

abbrev Parse := StateT Source (Except Fault)

namespace Parse

def fail {α : Type} (t : Text) : Parse α := do throw ⟨(← get).position, t⟩

def next? : Parse (Option Char) := do
  let s ← get
  match s.rest with
  | [] => return none
  | c :: rest =>
    set { s with rest, position := s.position + 1 }
    return some c

def skip (n : Nat) : Parse Unit :=
  modify fun s => { s with rest := s.rest.drop n, position := s.position + min n s.rest.length }

def takeWhile (p : Char → Bool) : Parse Text := do
  let t := (← get).rest.takeWhile p
  skip t.length
  return t

def skipBlanks : Parse Unit := do let _ ← takeWhile fun c => c == ' ' || c == '\t'

def number : Parse Nat := do return Text.digitsValue (← takeWhile Char.isDigit)

end Parse

open Parse

/-- Where a character of a pattern stands: outside of brackets, behind a backslash there, at a
place in brackets where a closing one closes nothing, further inside, or in a name that ends
with a mark and a bracket. -/
inductive Nesting
  | outside
  | escaped
  | opened
  | complemented
  | inside
  | named (mark : Char)
deriving DecidableEq

def Nesting.within (c : Char) (next : Option Char) : Nesting :=
  if c = '[' then
    match next with
    | some ':' => named ':'
    | some '.' => named '.'
    | some '=' => named '='
    | _ => inside
  else inside

def Nesting.after (n : Nesting) (c : Char) (next : Option Char) : Nesting :=
  match n with
  | outside => if c = '\\' && next.isSome then escaped else if c = '[' then opened else outside
  | escaped => outside
  | opened => if c = '^' then complemented else within c next
  | complemented => within c next
  | inside => if c = ']' then outside else within c next
  | named mark => if c = mark && next = some ']' then complemented else named mark

/-- The text up to a mark, how many characters it takes, and whether the mark is there. In a
pattern the mark has no meaning inside brackets; a backslash takes its meaning elsewhere. -/
def takeTo (mark : Char) (isPattern : Bool) : Nesting → Text → Text × Nat × Bool
  | _, [] => ([], 0, false)
  | place, c :: rest =>
    if place = .outside && c = mark then ([], 1, true)
    else if place != .escaped && c = '\n' && isPattern then ([], 1, false)
    else
      let next := place.after c rest.head?
      let next := if next = .opened && !isPattern then .outside else next
      let shown : Text :=
        if next = .escaped then []
        else if place = .escaped then
          if c = mark && (isPattern || c != '&') then [c]
          else if c = 'n' && isPattern then ['\n']
          else ['\\', c]
        else [c]
      let (t, n, found) := takeTo mark isPattern next rest
      (shown ++ t, n + 1, found)

def delimited (mark : Char) (isPattern : Bool) : Parse (Option Text) := do
  let s ← get
  let (t, n, found) := takeTo mark isPattern .outside s.rest
  if found then
    skip n
    return some t
  else
    skip s.rest.length
    return none

def letterEscape? (c : Char) : Option Char :=
  [('a', '\x07'), ('f', '\x0c'), ('n', '\n'), ('r', '\r'), ('t', '\t'), ('v', '\x0b')].lookup c

/-- The character of a number that is written with a few digits, and what follows; without
digits there is none. -/
def numbered? (base most : Nat) (t : Text) : Option (Char × Text) :=
  let digits := (t.take most).takeWhile fun c =>
    (Shell.Arithmetic.hexDigit? c).any (· < base)
  if digits.isEmpty then none
  else some (Char.ofNat (Shell.Arithmetic.valueIn base digits % 256), t.drop digits.length)

def escaped? : Text → Option (Char × Text)
  | 'd' :: rest => numbered? 10 3 rest
  | 'o' :: rest => numbered? 8 3 rest
  | 'x' :: rest => numbered? 16 2 rest
  | 'c' :: c :: rest => some (Char.ofNat (c.toUpper.toNat ^^^ 64), rest)
  | c :: rest => (letterEscape? c).map ((·, rest))
  | [] => none

def plainPattern : Nat → Text → Text
  | 0, t => t
  | n + 1, '\\' :: c :: rest => match escaped? (c :: rest) with
    | some (d, rest) => d :: plainPattern n rest
    | none => '\\' :: c :: plainPattern n rest
  | n + 1, c :: rest => c :: plainPattern n rest
  | _, [] => []

/-- The regular expression of a pattern; without a text it is the last one used. -/
def compile (t : Text) : Parse (Option Regex) := do
  if t.isEmpty then return none
  else
    let kind := if (← get).extended then Regex.Dialect.extended else .basic
    match Regex.read kind (plainPattern t.length t) true with
    | .ok r => return some r
    | .error e => fail e.text

def piecesOf : Nat → Text → List Piece
  | 0, _ => []
  | _, [] => []
  | n + 1, '&' :: rest => .group 0 :: piecesOf n rest
  | n + 1, '\\' :: c :: rest =>
    if c.isDigit then .group (c.toNat - '0'.toNat) :: piecesOf n rest
    else if "ULEul".toList.contains c then .letters c :: piecesOf n rest
    else match escaped? (c :: rest) with
      | some (d, rest) => .text [d] :: piecesOf n rest
      | none => .text [c] :: piecesOf n rest
  | n + 1, c :: rest =>
    let plain := (c :: rest).takeWhile fun d => d != '&' && d != '\\'
    if plain.isEmpty then .text [c] :: piecesOf n rest
    else .text plain :: piecesOf n ((c :: rest).drop plain.length)

def namedGroups (pieces : List Piece) : Nat :=
  pieces.foldl (fun n p => match p with
    | .group m => max n m
    | _ => n) 0

def spot? : Parse (Option Spot) := do
  match (← get).rest with
  | [] => return none
  | c :: _ =>
    if c.isDigit then
      let n ← number
      match (← get).rest with
      | '~' :: _ =>
        skip 1
        return some (.step n (← number))
      | _ => return some (.line n)
    else if c = '$' then
      skip 1
      return some .last
    else if c = '/' || c = '\\' then
      skip 1
      let mark ← if c = '/' then pure '/' else do pure ((← next?).getD '/')
      match ← delimited mark true with
      | none => fail "unterminated address regex"
      | some t =>
        let flags ← takeWhile fun c => c == 'I' || c == 'M'
        return some (.like (← compile t) ⟨flags.contains 'I', flags.contains 'M'⟩)
    else return none

def until? : Parse (Option Until) := do
  match (← get).rest with
  | '+' :: _ =>
    skip 1
    return some (.plus (← number))
  | '~' :: _ =>
    skip 1
    return some (.multiple (← number))
  | _ => return (← spot?).map .spot

def endOfCommand : Parse Unit := do
  skipBlanks
  match (← get).rest with
  | [] => return
  | c :: _ =>
    if c = '}' || c = '#' then return
    else
      skip 1
      unless c = '\n' || c = ';' do fail "extra characters after command"

def labelName : Parse Text := do
  skipBlanks
  takeWhile fun c => !Text.isBlank c && c != ';' && c != '\x7d'

def fileName : Parse Text := do
  skipBlanks
  let t ← takeWhile (· != '\n')
  skip 1
  if t.isEmpty then fail "missing filename in r/R/w/W commands"
  return t

/-- The lines of a text that is part of a script: a backslash goes on with the next line. -/
def takeText : Text → Text × Nat
  | [] => (['\n'], 0)
  | ['\\'] => (['\n'], 1)
  | '\\' :: c :: rest =>
    let (t, n) := takeText rest
    ((letterEscape? c).getD c :: t, n + 2)
  | '\n' :: _ => (['\n'], 1)
  | c :: rest =>
    let (t, n) := takeText rest
    (c :: t, n + 1)

def insertedText : Parse Text := do
  skipBlanks
  match (← get).rest with
  | [] => fail "expected \\ after `a', `c' or `i'"
  | '\\' :: rest =>
    skip 1
    match (rest.dropWhile fun c => c == ' ' || c == '\t') with
    | '\n' :: _ =>
      skipBlanks
      skip 1
    | _ => pure ()
    match (← get).rest with
    | [] => return []
    -- A letter behind the first backslash stands for itself.
    | c :: rest =>
      if c != '\n' && c != '\\' then
        let (t, n) := takeText rest
        skip (n + 1)
        return c :: t
  | _ => pure ()
  let (t, n) := takeText (← get).rest
  skip n
  return t

def substitutionFlags : Nat → Bool → Substitution → Parse Substitution
  | 0, _, s => return s
  | n + 1, numbered, s => do
    match (← get).rest with
    | [] => return s
    | c :: _ =>
      if c = '}' || c = '#' then return s
      else
        skip 1
        if c = '\n' || c = ';' then return s
        else if c = ' ' || c = '\t' then substitutionFlags n numbered s
        else if c = 'i' || c = 'I' then substitutionFlags n numbered { s with manner.ignoresCase := true }
        else if c = 'm' || c = 'M' then substitutionFlags n numbered { s with manner.hasLines := true }
        else if c = 'g' then
          if s.everywhere then fail "multiple `g' options to `s' command"
          substitutionFlags n numbered { s with everywhere := true }
        else if c = 'p' then
          if s.prints then fail "multiple `p' options to `s' command"
          substitutionFlags n numbered { s with prints := true }
        else if c.isDigit then
          if numbered then fail "multiple number options to `s' command"
          let rest ← takeWhile Char.isDigit
          let index := Text.digitsValue (c :: rest)
          if index = 0 then fail "number option to `s' command may not be zero"
          substitutionFlags n true { s with index }
        else if c = 'w' then return { s with file := some (← fileName) }
        else fail "unknown option to `s'"

def substitution : Parse Action := do
  let unfinished : Text := "unterminated `s' command"
  match ← next? with
  | none => fail unfinished
  | some mark =>
    match ← delimited mark true with
    | none => fail unfinished
    | some pattern => match ← delimited mark false with
      | none => fail unfinished
      | some put =>
        let pieces := piecesOf (put.length + 1) put
        let s ← substitutionFlags ((← get).rest.length + 1) false { pattern := none, pieces }
        let compiled ← compile pattern
        let named := namedGroups pieces
        if let some r := compiled then
          if r.groupCount < named then
            fail ("invalid reference \\" ++ Text.ofNat named ++ " on `s' command's RHS")
        return .substitute { s with pattern := compiled }

def translated : Nat → Text → Text
  | 0, t => t
  | n + 1, '\\' :: c :: rest => match escaped? (c :: rest) with
    | some (d, rest) => d :: translated n rest
    | none => c :: translated n rest
  | n + 1, c :: rest => c :: translated n rest
  | _, [] => []

def translation : Parse Action := do
  let unfinished : Text := "unterminated `y' command"
  match ← next? with
  | none => fail unfinished
  | some mark =>
    match ← delimited mark false with
    | none => fail unfinished
    | some a => match ← delimited mark false with
      | none => fail unfinished
      | some b =>
        let (a, b) := (translated a.length a, translated b.length b)
        if a.length ≠ b.length then fail "strings for `y' command are different lengths"
        endOfCommand
        return .translate (a.zip b)

def isKnownVersion (t : Text) : Bool :=
  if t.isEmpty then true
  else match (t.splitOn '.').map Text.digitsValue with
    | [4] => true
    | 4 :: n :: _ => n ≤ 9
    | n :: _ => t.all (fun c => c.isDigit || c == '.') && n < 4
    | [] => true

def action (c : Char) (selects ranges : Bool) : Parse Action := do
  if "dDgGhHnNpPxzF=".toList.contains c then
    endOfCommand
    return .letter c
  else if c = '\x7b' then return .block 0
  else if c = '\x7d' then
    if selects then fail "\x7d doesn't want any addresses"
    endOfCommand
    return .letter c
  else if c = 's' then substitution
  else if c = 'y' then translation
  else if c = 'a' || c = 'i' || c = 'c' then return .text c (← insertedText)
  else if c = ':' then
    if selects then fail ": doesn't want any addresses"
    let name ← labelName
    if name.isEmpty then fail "\":\" lacks a label"
    return .label name
  else if c = 'b' || c = 't' || c = 'T' then
    return .jump c (← labelName)
  else if c = 'q' || c = 'Q' then
    if ranges then fail "command only uses one address"
    skipBlanks
    let status ← number
    endOfCommand
    return .quit (c == 'q') status
  else if c = 'l' then
    skipBlanks
    let _ ← number
    endOfCommand
    return .letter 'l'
  else if c = 'r' || c = 'R' || c = 'w' || c = 'W' then return .file c (← fileName)
  else if c = 'v' then
    let asked ← labelName
    unless isKnownVersion asked do fail "expected newer version of sed"
    return .label []
  else fail ("unknown command: `" ++ [c, '\''])

def mayPrecede : Option Until → Bool
  | some (.spot (.like _ _)) => true
  | _ => false

def instruction? : Parse (Option Instruction) := do
  let _ ← takeWhile fun c => c == ' ' || c == '\t' || c == '\n' || c == ';'
  if (← get).rest.isEmpty then return none
  let first ← spot?
  match first, (← get).rest with
  | none, '+' :: _ | none, '~' :: _ =>
    skip 2
    fail "invalid usage of +N or ~N as first address"
  | _, _ => pure ()
  skipBlanks
  let last ← match first, (← get).rest with
    | some _, ',' :: _ => do
      skip 1
      skipBlanks
      match ← until? with
      | some u => pure (some u)
      | none => fail "unexpected `,'"
    | _, _ => pure none
  skipBlanks
  let marks ← takeWhile (· == '!')
  if 1 < marks.length then
    modify fun s => { s with position := s.position - marks.length + 2 }
    fail "multiple `!'s"
  skipBlanks
  match ← next? with
  | none => fail "missing command"
  | some c =>
    match first with
    | some (.line 0) => unless mayPrecede last do fail "invalid usage of line address 0"
    | _ => pure ()
    if c = '#' then
      if first.isSome then fail "comments don't accept any addresses"
      let _ ← takeWhile (· != '\n')
      return some { action := .label [] }
    let a ← action c first.isSome last.isSome
    return some { first, last, negated := !marks.isEmpty, action := a }

def instructions : Nat → Parse (List Instruction)
  | 0 => return []
  | n + 1 => do
    match ← instruction? with
    | none => return []
    | some i => return i :: (← instructions n)

def close (program : List Instruction) : Option (List Instruction) :=
  let step (s : Option (List (Nat × Nat) × List Nat)) (e : Instruction × Nat) :
      Option (List (Nat × Nat) × List Nat) :=
    s.bind fun (ends, opened) => match e.1.action with
      | .block _ => some (ends, e.2 :: opened)
      | .letter '\x7d' => match opened with
        | i :: others => some ((i, e.2 + 1) :: ends, others)
        | [] => none
      | _ => some (ends, opened)
  match program.zipIdx.foldl step (some ([], [])) with
  | some (ends, []) => some (program.zipIdx.map fun (i, n) => match i.action with
      | .block _ => { i with action := .block ((ends.lookup n).getD 0) }
      | _ => i)
  | _ => none

def strayClose : Nat → Nat → Parse Nat
  | 0, _ => return 0
  | n + 1, depth => do
    match ← instruction? with
    | none => return 0
    | some i => match i.action with
      | .block _ => strayClose n (depth + 1)
      | .letter '\x7d' =>
        if depth = 0 then return (← get).position else strayClose n (depth - 1)
      | _ => strayClose n depth

def read (extended : Bool) (script : Text) : Except Fault (List Instruction) := do
  let source : Source := { rest := script, extended }
  let (program, _) ← (instructions (script.length + 1)).run source
  match close program with
  | some program => return program
  | none =>
    let (stray, _) ← (strayClose (script.length + 1) 0).run source
    if stray = 0 then throw ⟨0, "unmatched `\x7b'"⟩ else throw ⟨stray, "unexpected `\x7d'"⟩

def writtenFiles (program : List Instruction) : List Text :=
  program.filterMap fun i => match i.action with
    | .file 'w' name => some name
    | .file 'W' name => some name
    | .substitute s => s.file
    | _ => none

def missingLabel? (program : List Instruction) : Option Text :=
  let labels := program.filterMap fun i => match i.action with
    | .label name => some name
    | _ => none
  (program.filterMap fun i => match i.action with
    | .jump _ name => if name.isEmpty || labels.contains name then none else some name
    | _ => none).head?

end Edit

end Tool
end TypedCommand
