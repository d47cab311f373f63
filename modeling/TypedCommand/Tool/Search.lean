import TypedCommand.Regex
import TypedCommand.Tool.Call
import TypedCommand.Tool.Lines

/-!
Searching files for lines that match a pattern: which lines count, what of them is shown,
and which lines around them are shown with them.
-/

namespace TypedCommand

namespace Tool

structure Query where
  patterns : List Regex
  ignoresCase : Bool := false
  wholeWords : Bool := false
  wholeLines : Bool := false
  inverts : Bool := false

namespace Query

def endsWord (q : Query) (p : Regex.Place) : Bool :=
  !q.wholeWords || !p.rest.head?.any Regex.isWordChar

def matchAt? (q : Query) (s : Regex.Subject) (p : Regex.Place) : Option Regex.Match :=
  if q.wholeWords && p.before.any Regex.isWordChar then none
  else
    let found := q.patterns.flatMap fun r => (Regex.ordered (Regex.ends s r p)).filter fun e =>
      q.endsWord e && (!q.wholeLines || (p.position = 0 && e.rest.isEmpty))
    (Regex.ordered found).head?.map fun e => ⟨p.position, e.position, e.groups⟩

def search? (q : Query) (s : Regex.Subject) (before : Option Char) (position : Nat) :
    Text → Option Regex.Match
  | [] => q.matchAt? s ⟨before, [], position, []⟩
  | c :: rest =>
    match q.matchAt? s ⟨before, c :: rest, position, []⟩ with
    | some m => some m
    | none => q.search? s (some c) (position + 1) rest

def selects (q : Query) (line : Text) : Bool :=
  (q.search? { text := line, ignoresCase := q.ignoresCase } none 0 line).isSome != q.inverts

/-- The parts of a line that match, without the empty ones, so many at most. -/
def partsFrom (q : Query) (line : Text) : Nat → Nat → List (Nat × Text)
  | 0, _ => []
  | n + 1, position =>
    let before := if position = 0 then none else (line.drop (position - 1)).head?
    match q.search? { text := line, ignoresCase := q.ignoresCase } before position (line.drop position) with
    | none => []
    | some m =>
      if m.first = m.last then
        if line.length ≤ m.last then [] else q.partsFrom line n (m.last + 1)
      else (m.first, m.text line) :: q.partsFrom line n m.last

end Query

structure Shown where
  names : Bool := false
  numbers : Bool := false
  offsets : Bool := false
  onlyParts : Bool := false
  before : Nat := 0
  after : Nat := 0
  most : Option Nat := none
  colors : Bool := false

def Shown.paint (s : Shown) (color : String) (t : Text) : Text :=
  if s.colors then "\x1b[".toList ++ color.toList ++ "m\x1b[K".toList ++ t ++ "\x1b[m\x1b[K".toList else t

/-- A line with its number and the position of its first byte. -/
structure NumberedLine where
  number : Nat
  offset : Nat
  text : Text

def numberLines : Nat → Nat → List Text → List NumberedLine
  | _, _, [] => []
  | n, offset, line :: rest => ⟨n, offset, line⟩ :: numberLines (n + 1) (offset + line.length + 1) rest

def Shown.label (s : Shown) (name : Text) (mark : Char) (l : NumberedLine) : Text :=
  let mark := s.paint "36" [mark]
  (if s.names then s.paint "35" name ++ mark else []) ++
    (if s.numbers then s.paint "32" (Text.ofNat l.number) ++ mark else []) ++
    (if s.offsets then s.paint "32" (Text.ofNat l.offset) ++ mark else [])

def Shown.highlighted (s : Shown) (line : Text) (position : Nat) : List (Nat × Text) → Text
  | [] => line.drop position
  | (first, t) :: rest =>
    (line.drop position).take (first - position) ++ s.paint "01;31" t ++
      s.highlighted line (first + t.length) rest

/-- The lines as they are shown, with those around them; `last` is the number of the line
shown last, `after` how many lines behind a match are still to be shown, and `kept` the
lines passed over since. -/
def Shown.lines (s : Shown) (q : Query) (name : Text) :
    Nat → Nat → List NumberedLine → Option Nat → List NumberedLine → Text
  | _, _, _, _, [] => []
  | last, after, kept, left, l :: rest =>
    let isContext := 0 < s.before || 0 < s.after
    if q.selects l.text && left != some 0 then
      let above := kept.drop (kept.length - s.before)
      let first := (above.head?.map (·.number)).getD l.number
      let gap : Text :=
        if isContext && last ≠ 0 && last + 1 < first then s.paint "36" "--" ++ ['\n'] else []
      let shownAbove := above.flatMap fun k => s.label name '-' k ++ k.text ++ ['\n']
      let parts := if q.inverts then [] else q.partsFrom l.text (l.text.length + 2) 0
      let body :=
        if s.onlyParts then
          parts.flatMap fun (position, t) =>
            s.label name ':' { l with offset := l.offset + position } ++ s.paint "01;31" t ++ ['\n']
        else s.label name ':' l ++
          (if s.colors then s.highlighted l.text 0 parts else l.text) ++ ['\n']
      (if s.onlyParts then body else gap ++ shownAbove ++ body) ++
        s.lines q name l.number s.after [] (left.map (· - 1)) rest
    else if 0 < after then
      (if s.onlyParts then [] else s.label name '-' l ++ l.text ++ ['\n']) ++
        s.lines q name l.number (after - 1) [] left rest
    else if left = some 0 then []
    else s.lines q name last 0 (kept ++ [l]) left rest

def filesBelow (t : FileTree) (follows : Bool) : Nat → Text → Text → List Text
  | 0, _, _ => []
  | n + 1, path, place =>
    match t.locate follows ['/'] place with
    | .ok (inner, .directory) => (t.children inner).flatMap fun name =>
        filesBelow t follows n
          (if path.isEmpty then name else FileTree.child (Text.trimEnd (· == '/') path) name)
          (FileTree.child inner name)
    | .ok (_, .file _ _) => [path]
    | .ok _ => []
    | .error _ => if follows then [path] else []

def readPatterns (o : Options) (texts : List Text) :
    Except Regex.Fault (List (Regex × List Text)) :=
  let kind := (o.lastOf? "EFGP".toList).getD 'G'
  (texts.flatMap (·.splitOn '\n')).mapM fun t =>
    if kind = 'F' then .ok (Regex.ofText t, [])
    else if kind = 'P' then
      -- A digit has a letter of its own in this notation.
      Regex.readWithIdle .extended (List.flatten ((String.ofList t).splitOn "\\d"
        |>.map String.toList |>.intersperse "[0-9]".toList))
    else Regex.readWithIdle (if kind = 'E' then .extended else .basic) t

def patternFault (texts : List Text) (e : Regex.Fault) : Text :=
  match e with
  | .unmatchedBracket =>
    if texts.any fun t => t.getLast? == some '[' then "Invalid regular expression" else e.text
  | _ => e.text

def colorChoice? (w : Text) : Option Bool :=
  if "--color".toList.isPrefixOf w || "--colour".toList.isPrefixOf w then
    some ((w.dropWhile (· != '=')).drop 1 == "always".toList)
  else none

def searchForms : List OptionForm :=
  [flag 'E' "extended-regexp", flag 'F' "fixed-strings", flag 'G' "basic-regexp", flag 'P' "perl-regexp",
    flag 'i' "ignore-case", flag 'y', flag 'v' "invert-match", flag 'c' "count", flag 'n' "line-number",
    flag 'l' "files-with-matches", flag 'L' "files-without-match", flag 'h' "no-filename",
    flag 'H' "with-filename", flag 'q' "quiet", flag 'q' "silent", flag 's' "no-messages",
    flag 'o' "only-matching", flag 'w' "word-regexp", flag 'x' "line-regexp", valued 'e' "regexp",
    valued 'f' "file", valued 'm' "max-count", valued 'A' "after-context", valued 'B' "before-context",
    valued 'C' "context", flag 'r' "recursive", flag 'R' "dereference-recursive", flag 'b' "byte-offset",
    flag 'a' "text", flag 'z' "null-data", flag 'Z' "null", valued 'I' "include", valued 'X' "exclude",
    flag 'u', flag 'U', flag 'T' "initial-tab",
    flag 'N' "line-buffered", valued 'D' "label"]

def expandContext (words : List Text) : List Text :=
  words.flatMap fun w => match w with
    | '-' :: digits => if Text.isDigits digits then ["-C".toList, digits] else [w]
    | w => [w]

def searchIn (c : Call) (o : Options) (q : Query) (s : Shown) (paths : List Text) : Reply :=
  let one (path : Text) : List (Nat × Text) × Bool × Bool :=
    match c.content path with
    | .error e =>
      (if o.has 's' then [] else [(2, c.message (path ++ ": " ++ e.text))], false, true)
    | .ok t =>
      let name : Text := if path = ['-'] then "(standard input)" else path
      let lines := numberLines 1 0 (linesOf t)
      let hits := (lines.filter fun l => q.selects l.text).length
      let hits := (s.most.map (min hits)).getD hits
      let found := 0 < hits
      let shown :=
        if o.has 'q' then []
        else if o.has 'l' then (if found then s.paint "35" name ++ ['\n'] else [])
        else if o.has 'L' then (if found then [] else s.paint "35" name ++ ['\n'])
        else if o.has 'c' then
          (if s.names then s.paint "35" name ++ s.paint "36" ":" else []) ++ Text.ofNat hits ++ ['\n']
        else s.lines q name 0 0 [] s.most lines
      ([(1, shown)], found, false)
  let hasEnough (path : Text) : Bool := match c.content path with
    | .error _ => false
    | .ok t =>
      let hits := ((linesOf t).filter q.selects).length
      0 < hits && (o.has 'q' || o.has 'l' || o.has 'L') || s.most.any fun most => most ≤ hits && !o.has 'L'
  let results := paths.map one
  let found := results.any fun r => if o.has 'L' then !r.2.1 && !r.2.2 else r.2.1
  let failed := results.any (·.2.2)
  let printed := results.flatMap (·.1)
  let errors := printed.filter (·.1 == 2)
  { printed := errors ++ printed.filter (·.1 == 1)
    status := if failed && !(o.has 'q' && found) then 2 else if found then 0 else 1
    readsInput := paths.contains ['-']
    stopsEarly := c.inputIsCut && paths.all fun path => path != ['-'] || hasEnough path }

def searchWith (kind : Text) (c : Call) : Reply :=
  let usage := "Usage: ".toList ++ c.name ++ " [OPTION]... PATTERNS [FILE]...\n".toList ++ c.hint
  match Options.readFrom searchForms true {} (2 * c.arguments.length + 1)
      ((if kind.isEmpty then [] else [kind]) ++
        (expandContext c.arguments).filter fun w => (colorChoice? w).isNone) with
  | .error fault =>
    { printed := [(2, c.message fault.text ++ usage)], status := 2 }
  | .ok o =>
    let given := o.options.filterMap fun (l, v) =>
      if l = 'e' then some (.ok v)
      else if l = 'f' then some ((c.content v).map fun t => Text.trimEnd (· == '\n') t)
      else none
    let (texts, operands) := if given.isEmpty then
        ((o.operands.take 1).map Except.ok, o.operands.drop 1) else (given, o.operands)
    match (texts.mapM id : Except FileFault (List Text)) with
    | .error e => Reply.failed (c.name ++ ": " ++ (o.value? 'f').getD [] ++ ": " ++ e.text) 2
    | .ok [] => { printed := [(2, usage)], status := 2 }
    | .ok texts => match readPatterns o texts with
      | .error e => Reply.failed (c.name ++ ": " ++ patternFault texts e) 2
      | .ok read =>
        let patterns := read.map Prod.fst
        let warnings := (read.flatMap Prod.snd).map fun mark =>
          (2, c.message ("warning: " ++ mark ++ " at start of expression"))
        let badCount := ("ABC".toList.filterMap o.value?).find? fun v => (natural? v).isNone
        match badCount, (o.value? 'm').map natural? with
        | some v, _ => Reply.failed (c.name ++ ": " ++ v ++ ": invalid context length argument") 2
        | _, some none => Reply.failed (c.name ++ ": invalid max count") 2
        | none, most =>
          let q : Query := {
            patterns, ignoresCase := o.has 'i' || o.has 'y', wholeWords := o.has 'w'
            wholeLines := o.has 'x', inverts := o.has 'v' }
          let number (l : Char) : Nat := (((o.value? l).or (o.value? 'C')).bind natural?).getD 0
          let deep := o.has 'r' || o.has 'R'
          let accepts (path : Text) : Bool :=
            let isLike (p : Text) : Bool :=
              Shell.Pattern.isMatch (p.map (·, true)) (FileTree.baseName path)
            let includes := (o.options.filter (·.1 == 'I')).map Prod.snd
            let excludes := (o.options.filter (·.1 == 'X')).map Prod.snd
            (includes.isEmpty || includes.any isLike) && !excludes.any isLike
          let paths :=
            if deep then
              if operands.isEmpty then (filesBelow c.files (o.has 'R') 64 [] c.directory).filter accepts
              else operands.flatMap fun path => match c.files.find? c.directory path with
                | some (place, .directory) => (filesBelow c.files (o.has 'R') 64 path place).filter accepts
                | _ => [path]
            else if operands.isEmpty then [['-']] else operands
          let s : Shown := {
            names := if o.lastOf? "hH".toList = some 'h' then false
              else o.has 'H' || 1 < operands.length ||
                (deep && (operands.isEmpty || operands.any (c.files.isDirectory c.directory)))
            numbers := o.has 'n'
            offsets := o.has 'b'
            onlyParts := o.has 'o'
            before := number 'B'
            after := number 'A'
            most := most.getD none
            colors := ((c.arguments.filterMap colorChoice?).getLast?).getD false }
          let reply := searchIn c o q s paths
          { reply with printed := warnings ++ reply.printed }

def grep (c : Call) : Reply := searchWith [] c

def egrep (c : Call) : Reply := searchWith "-E" { c with name := "grep" }

def fgrep (c : Call) : Reply := searchWith "-F" { c with name := "grep" }

end Tool
end TypedCommand
