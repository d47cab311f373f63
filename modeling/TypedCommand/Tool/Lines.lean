import TypedCommand.Tool.Call

/-!
Programs that show files line by line: whole, from the front, from the end, backwards,
numbered, broken up, or counted.
-/

namespace TypedCommand

namespace Tool

structure Display where
  numbers : Bool := false
  numbersText : Bool := false
  squeezes : Bool := false
  marksEnds : Bool := false
  marksTabs : Bool := false
  marksOthers : Bool := false

def Display.char (d : Display) (c : Char) : Text :=
  let n := c.toNat
  if c = '\n' then [c]
  else if c = '\t' then (if d.marksTabs then "^I" else [c])
  else if !d.marksOthers then [c]
  else
    let low (n : Nat) : Text :=
      if n < 0x20 then ['^', Char.ofNat (n + 0x40)]
      else if n = 0x7F then ['^', '?']
      else [Char.ofNat n]
    if n < 0x80 then low n else "M-" ++ low (n - 0x80)

def lineNumber (n : Nat) : Text :=
  let digits := Text.ofNat n
  List.replicate (6 - digits.length) ' ' ++ digits ++ ['\t']

/-- Shows lines, the first of which has the number behind the given one; the line before
was blank or not. -/
def Display.lines (d : Display) (lastEnds : Bool) : Nat → Bool → List Text → Text
  | _, _, [] => []
  | n, wasBlank, line :: rest =>
    if d.squeezes && wasBlank && line.isEmpty then d.lines lastEnds n true rest
    else
      let isNumbered := if d.numbersText then !line.isEmpty else d.numbers
      let n := if isNumbered then n + 1 else n
      let ends := !rest.isEmpty || lastEnds
      (if isNumbered then lineNumber n else []) ++ line.flatMap d.char ++
        (if !ends then [] else if d.marksEnds then ['$', '\n'] else ['\n']) ++
        d.lines lastEnds n line.isEmpty rest

def Display.text (d : Display) (t : Text) : Text :=
  let (lines, isOpen) := splitLines t
  d.lines (!isOpen) 0 false lines

def cat (c : Call) : Reply :=
  let forms := [flag 'b' "number-nonblank", flag 'n' "number", flag 's' "squeeze-blank",
    flag 'E' "show-ends", flag 'T' "show-tabs", flag 'A' "show-all", flag 'v' "show-nonprinting",
    flag 'e', flag 't', flag 'u']
  c.withOptions forms fun o =>
    let d : Display := {
      numbers := o.has 'n'
      numbersText := o.has 'b'
      squeezes := o.has 's'
      marksEnds := o.has 'E' || o.has 'A' || o.has 'e'
      marksTabs := o.has 'T' || o.has 'A' || o.has 't'
      marksOthers := o.has 'v' || o.has 'A' || o.has 'e' || o.has 't' }
    if o.options.isEmpty then
      let parts := c.contents o.operands
      { printed := parts.map fun (path, r) => match r with
          | .ok t => (1, t)
          | .error e => (2, c.message (Call.faultText path e))
        status := if parts.all (·.2.toBool) then 0 else 1
        readsInput := Call.usesInput o.operands }
    else c.filter o.operands d.text

/-- The line breaks of a text count as its lines; what is behind the last one counts too. -/
def takeLines : Nat → Text → Text
  | 0, _ => []
  | _, [] => []
  | n + 1, '\n' :: rest => '\n' :: takeLines n rest
  | n + 1, c :: rest => c :: takeLines (n + 1) rest

def dropLines (n : Nat) (t : Text) : Text := t.drop (takeLines n t).length

def countLines (t : Text) : Nat :=
  t.count '\n' + if t.isEmpty || t.getLast? = some '\n' then 0 else 1

/-- A number of lines or of bytes, counted from the other end or not. -/
structure Extent where
  inBytes : Bool := false
  fromOther : Bool := false
  count : Nat := 10

/-- The front of a text; counted from the other end, all but its last part. -/
def Extent.front (e : Extent) (t : Text) : Text :=
  if e.inBytes then t.take (if e.fromOther then t.length - e.count else e.count)
  else takeLines (if e.fromOther then countLines t - e.count else e.count) t

/-- The end of a text; counted from the other end, all from a line or byte on. -/
def Extent.back (e : Extent) (t : Text) : Text :=
  if e.inBytes then t.drop (if e.fromOther then e.count - 1 else t.length - e.count)
  else dropLines (if e.fromOther then e.count - 1 else countLines t - e.count) t

def countOf? (t : Text) : Option Nat :=
  let digits := t.takeWhile Char.isDigit
  if digits.isEmpty then none
  else
    let n := Text.digitsValue digits
    match String.ofList (t.drop digits.length) with
    | "" => some n
    | "b" => some (n * 512)
    | "k" | "K" | "KiB" => some (n * 1024)
    | "kB" | "KB" => some (n * 1000)
    | "M" | "m" | "MiB" => some (n * 1048576)
    | _ => none

def readExtent? (mark : Char) (inBytes : Bool) (t : Text) : Option Extent :=
  match t with
  | c :: rest =>
    if c = mark then (countOf? rest).map fun count => { inBytes, fromOther := true, count }
    else if c = '-' || c = '+' then (countOf? rest).map fun count => { inBytes, count }
    else (countOf? t).map fun count => { inBytes, count }
  | [] => none

/-- The old way to give a count: a dash and digits in the first word. -/
def expandCount (plus : Bool) : List Text → List Text
  | ('-' :: c :: rest) :: ws =>
    let digits := (c :: rest).takeWhile Char.isDigit
    if digits.isEmpty then ('-' :: c :: rest) :: ws
    else
      let letters := (c :: rest).drop digits.length
      let kind : Text := if letters.contains 'c' then "-c" else "-n"
      let others := letters.filter fun l => l == 'q' || l == 'v'
      (if others.isEmpty then [] else ['-' :: others]) ++ kind :: digits :: ws
  | ('+' :: rest) :: ws =>
    if plus && Text.isDigits rest then "-n".toList :: ('+' :: rest) :: ws else ('+' :: rest) :: ws
  | ws => ws

def showParts (c : Call) (o : Options) (part : Text → Text) : Reply :=
  let operands := if o.operands.isEmpty then [['-']] else o.operands
  let titled := if o.has 'q' then false else o.has 'v' || 1 < operands.length
  let step (s : List (Nat × Text) × Bool × Bool) (path : Text) : List (Nat × Text) × Bool × Bool :=
    let (printed, isFirst, failed) := s
    let title : Text :=
      (if isFirst then [] else ['\n']) ++ "==> " ++
        (if path = ['-'] then "standard input".toList else path) ++ " <==\n"
    match c.content path with
    | .ok t => (printed ++ [(1, (if titled then title else []) ++ part t)], false, failed)
    | .error .isDirectory =>
      (printed ++ [(1, if titled then title else []),
        (2, c.message ("error reading " ++ Call.quoteAlways path ++ ": " ++ FileFault.isDirectory.text))],
        false, true)
    | .error e =>
      (printed ++ [(2, c.message ("cannot open " ++ Call.quoteAlways path ++ " for reading: " ++ e.text))],
        isFirst, true)
  let (printed, _, failed) := operands.foldl step ([], true, false)
  { printed, status := if failed then 1 else 0, readsInput := Call.usesInput o.operands }

def showEnds (isFront : Bool) (c : Call) : Reply :=
  let forms := [valued 'n' "lines", valued 'c' "bytes", flag 'q' "quiet", flag 'q' "silent",
    flag 'v' "verbose", flag 'f' "follow"]
  let c' := { c with arguments := expandCount (!isFront) c.arguments }
  c'.withOptions forms fun o =>
    let extents := o.options.filter fun e => e.1 == 'n' || e.1 == 'c'
    let mark := if isFront then '-' else '+'
    let shown (e : Extent) : Reply :=
      let reply := showParts c o (if isFront then e.front else e.back)
      if isFront && Call.usesInput o.operands then
        let unread := c.input.length - (e.front c.input).length
        { reply with unread, stopsEarly := 0 < unread && !e.fromOther }
      else if !isFront && o.has 'f' && !Call.usesInput o.operands then
        { reply with sequel := some { procedure := .passes none (.ended reply.status) } }
      else reply
    match extents.getLast? with
    | none => shown {}
    | some (letter, value) =>
      match readExtent? mark (letter == 'c') value with
      | some e => shown e
      | none => Reply.failed (c.name ++ ": invalid number of ".toList ++
          (if letter = 'c' then "bytes: ".toList else "lines: ".toList) ++ value.inQuotes)

def head (c : Call) : Reply := showEnds true c

def tail (c : Call) : Reply := showEnds false c

def pieces (t : Text) : List Text :=
  let (lines, isOpen) := splitLines t
  let n := lines.length
  lines.zipIdx.map fun (line, i) => if isOpen && i + 1 = n then line else line ++ ['\n']

def tac (c : Call) : Reply :=
  c.withOptions [] fun o =>
    let parts := c.contents o.operands
    { printed := parts.map fun (path, r) => match r with
        | .ok t => (1, (pieces t).reverse.flatten)
        | .error .isDirectory =>
          (2, c.message (Call.quoteName path ++ ": read error: Is a directory".toList))
        | .error e =>
          (2, c.message ("failed to open " ++ Call.quoteAlways path ++ " for reading: " ++ e.text))
      status := if parts.all (·.2.toBool) then 0 else 1
      readsInput := Call.usesInput o.operands }

def rev (c : Call) : Reply :=
  let parts := c.contents c.arguments
  let reversed (t : Text) : Text :=
    let (lines, isOpen) := splitLines t
    let shown : Text := ['\n'].intercalate (lines.map List.reverse)
    if isOpen || t.isEmpty then shown else shown ++ ['\n']
  { printed := parts.map fun (path, r) => match r with
      | .ok t => (1, reversed t)
      | .error e => (2, c.message ("cannot open " ++ path ++ ": " ++ e.text))
    status := if parts.all (·.2.toBool) then 0 else 1
    readsInput := Call.usesInput c.arguments }

structure Numbering where
  style : Char := 't'
  format : Text := "rn"
  width : Nat := 6
  separator : Text := ['\t']
  step : Nat := 1

def Numbering.lines (s : Numbering) : Nat → List Text → Text
  | _, [] => []
  | n, line :: rest =>
    if s.style = 'a' || (s.style = 't' && !line.isEmpty) then
      let digits := Text.ofNat n
      let fill := s.width - digits.length
      let shown : Text :=
        if s.format = "ln".toList then digits ++ List.replicate fill ' '
        else if s.format = "rz".toList then List.replicate fill '0' ++ digits
        else List.replicate fill ' ' ++ digits
      shown ++ s.separator ++ line ++ ['\n'] ++ s.lines (n + s.step) rest
    else
      List.replicate (s.width + s.separator.length) ' ' ++ line ++ ['\n'] ++ s.lines n rest

def nl (c : Call) : Reply :=
  let forms := [valued 'b' "body-numbering", valued 'w' "number-width", valued 's' "number-separator",
    valued 'v' "starting-line-number", valued 'i' "line-increment", valued 'n' "number-format",
    valued 'h', valued 'f', flag 'p']
  c.withOptions forms fun o =>
    let number (l : Char) (default : Nat) : Nat := ((o.value? l).bind natural?).getD default
    let s : Numbering := {
      style := ((o.value? 'b').bind List.head?).getD 't'
      format := (o.value? 'n').getD "rn"
      width := number 'w' 6
      separator := (o.value? 's').getD ['\t']
      step := number 'i' 1 }
    c.filter o.operands fun t => s.lines (number 'v' 1) (linesOf t)

/-- A line in parts of a width; `atBlanks` breaks it behind a blank where there is one. -/
def foldLine (width : Nat) (atBlanks : Bool) : Nat → Text → Text
  | 0, t => t
  | n + 1, t =>
    if t.length ≤ width then t
    else
      let front := t.take width
      let blank := (front.reverse.dropWhile fun ch => ch != ' ' && ch != '\t').reverse
      let part := if atBlanks && !blank.isEmpty then blank else front
      part ++ '\n' :: foldLine width atBlanks n (t.drop part.length)

def foldLines (c : Call) : Reply :=
  let forms := [valued 'w' "width", flag 's' "spaces", flag 'b' "bytes"]
  let arguments := match c.arguments with
    | ('-' :: d :: rest) :: ws =>
      if d.isDigit then "-w".toList :: (d :: rest) :: ws else c.arguments
    | ws => ws
  { c with arguments }.withOptions forms fun o =>
    let value := (o.value? 'w').getD "80"
    match (natural? value).filter (· != 0) with
    | none => Reply.failed (c.name ++ ": invalid number of columns: ".toList ++ value.inQuotes)
    | some width => c.filter o.operands fun t =>
        let (lines, isOpen) := splitLines t
        let shown : Text :=
          ['\n'].intercalate (lines.map fun (l : Text) => foldLine width (o.has 's') (l.length + 1) l)
        if isOpen || t.isEmpty then shown else shown ++ ['\n']

/-- A text with blanks up to the next stop in place of each tab, from a column on. -/
def expandTabs (stop : Nat) : Nat → Text → Text
  | _, [] => []
  | column, c :: rest =>
    if c = '\t' then
      let n := stop - column % stop
      List.replicate n ' ' ++ expandTabs stop (column + n) rest
    else if c = '\n' then c :: expandTabs stop 0 rest
    else c :: expandTabs stop (column + 1) rest

def expand (c : Call) : Reply :=
  c.withOptions [valued 't' "tabs", flag 'i' "initial"] fun o =>
    c.filter o.operands (expandTabs (max 1 (((o.value? 't').bind natural?).getD 8)) 0)

def tee (c : Call) : Reply :=
  c.withOptions [flag 'a' "append", flag 'i' "ignore-interrupts"] fun o =>
    let step (s : FileTree × Text) (path : Text) : FileTree × Text :=
      let before := if o.has 'a' then (s.1.read c.directory path).toOption.getD [] else []
      match s.1.write c.directory path (before ++ c.input) with
      | .ok t => (t, s.2)
      | .error e => (s.1, s.2 ++ c.message (Call.faultText path e))
    let (files, errors) := o.operands.foldl step (c.files, [])
    { printed := [(2, errors), (1, c.input)], status := if errors.isEmpty then 0 else 1
      files := some files, readsInput := true }

structure Counts where
  lines : Nat := 0
  words : Nat := 0
  chars : Nat := 0
  bytes : Nat := 0
  longest : Nat := 0

def countWords (t : Text) : Nat :=
  (t.foldl (fun (s : Nat × Bool) c =>
    let isBlank := c == ' ' || (9 ≤ c.toNat && c.toNat ≤ 13)
    (if s.2 && !isBlank then s.1 + 1 else s.1, isBlank)) (0, true)).1

/-- The counts of a text; the longest line is looked for if it is asked for. -/
def Counts.of (o : Options) (t : Text) : Counts where
  lines := t.count '\n'
  words := countWords t
  chars := t.length
  bytes := t.length
  longest := if o.has 'L' then (linesOf t).foldl (fun n l => max n (expandTabs 8 0 l).length) 0 else 0

def Counts.add (a b : Counts) : Counts where
  lines := a.lines + b.lines
  words := a.words + b.words
  chars := a.chars + b.chars
  bytes := a.bytes + b.bytes
  longest := max a.longest b.longest

def Counts.row (k : Counts) (o : Options) (width : Nat) (name : Text) : Text :=
  let all := !(o.has 'l' || o.has 'w' || o.has 'c' || o.has 'm' || o.has 'L')
  let shown := (if all || o.has 'l' then [k.lines] else []) ++
    (if all || o.has 'w' then [k.words] else []) ++ (if o.has 'm' then [k.chars] else []) ++
    (if all || o.has 'c' then [k.bytes] else []) ++ (if o.has 'L' then [k.longest] else [])
  let cells := shown.map fun n =>
    let digits := Text.ofNat n
    List.replicate (width - digits.length) ' ' ++ digits
  [' '].intercalate (cells ++ if name.isEmpty then [] else [name]) ++ ['\n']

def countColumns (o : Options) : Nat :=
  let n := ("lwmcL".toList.filter o.has).length
  if n = 0 then 3 else n

def wc (c : Call) : Reply :=
  let forms := [flag 'l' "lines", flag 'w' "words", flag 'c' "bytes", flag 'm' "chars",
    flag 'L' "max-line-length"]
  c.withOptions forms fun o =>
    let parts := c.contents o.operands
    let isFile (path : Text) : Bool := match c.files.find? c.directory path with
      | some (_, .file _ _) => true
      | _ => false
    let known := parts.filter fun p => (p.1 == ['-'] && c.inputIsFile) || isFile p.1
    let present := parts.filter fun p => p.2 matches .ok _ | .error .isDirectory
    let total : Counts :=
      (parts.filterMap fun p => p.2.toOption).foldl (fun k t => k.add (.of o t)) {}
    let width :=
      if parts.length = 1 && countColumns o = 1 then 1
      else if present.any fun p => !known.any (·.1 == p.1) then 7
      else (Text.ofNat total.bytes).length
    let rows := parts.flatMap fun (path, r) =>
      let name := if o.operands.isEmpty then [] else path
      match r with
      | .ok t => [(1, (Counts.of o t).row o width name)]
      | .error e => (2, c.message (Call.faultText path e)) ::
          if e = .isDirectory then [(1, ({} : Counts).row o width name)] else []
    { printed := rows ++ if 1 < parts.length then [(1, total.row o width "total")] else []
      status := if parts.all (·.2.toBool) then 0 else 1
      readsInput := Call.usesInput o.operands }

end Tool
end TypedCommand
