import TypedCommand.Tool.Edit.Script

/-!
Lines edited by a script. Each line in turn becomes the text at hand, the commands are
carried out on it, and it is shown at the end unless a command says otherwise.
-/

namespace TypedCommand

namespace Tool

namespace Edit

/-- A line that is to be read: whether a line break ends it, whether it is the last one that
counts, whether counting begins anew with it, and the name of its file. What is said on the
way to it comes before it. -/
structure Line where
  text : Text
  ends : Bool := true
  isLast : Bool := false
  isNew : Bool := false
  file : Text := []
  said : Text := []

structure Progress where
  space : Text := []
  held : Text := []
  ends : Bool := true
  isLast : Bool := false
  file : Text := []
  number : Nat := 0
  input : List Line := []
  /-- What is shown when the line at hand is done. -/
  queue : List Text := []
  out : List Text := []
  /-- Whether a line break is to be shown before anything else. -/
  isOpen : Bool := false
  replaced : Bool := false
  /-- The ranges that have begun, by the numbers of their commands, with their last lines. -/
  ranges : List (Nat × Option Nat) := []
  /-- The commands whose range began before the first line and has ended. -/
  spent : List Nat := []
  lastPattern : Option (Regex × Manner) := none
  /-- What has been said of files that cannot be read, and shown beside the lines. -/
  said : Text := []
  aside : List Text := []
  files : FileTree := {}
  directory : Text := ['/']

abbrev Run := ExceptT Text (StateM Progress)

inductive Ending
  | shown
  | dropped
  | again
  | quit (shows : Bool) (status : Nat)

namespace Run

def emit (t : Text) (ends : Bool) : Run Unit :=
  modify fun p => { p with
    out := (if ends then ['\n'] else []) :: t :: (if p.isOpen then [['\n']] else []) ++ p.out
    isOpen := !ends }

def emitRaw (t : Text) : Run Unit :=
  unless t.isEmpty do
    emit (if t.getLast? = some '\n' then t.dropLast else t) (t.getLast? == some '\n')

def patternOf (r : Option Regex) (manner : Manner) : Run (Regex × Manner) := do
  match r with
  | some r =>
    modify fun p => { p with lastPattern := some (r, manner) }
    return (r, manner)
  | none => match (← get).lastPattern with
    | some found => return found
    | none => throw "no previous regular expression".toList

def subjectOf (text : Text) (manner : Manner) : Regex.Subject :=
  { text, ignoresCase := manner.ignoresCase, hasLines := manner.hasLines }

def isAt : Spot → Run Bool
  | .line n => do return (← get).number == n
  | .step first interval => do
    let n := (← get).number
    return if interval = 0 then n == first else first ≤ n && (n - first) % interval == 0
  | .last => do return (← get).isLast
  | .like r manner => do
    let (r, manner) ← patternOf r manner
    return (Regex.search (subjectOf (← get).space manner) r).isSome

def begin (index : Nat) (last : Option Nat) : Run Unit := do
  let n := (← get).number
  unless last.any (· ≤ n) do modify fun p => { p with ranges := (index, last) :: p.ranges }

def finish (index : Nat) : Run Unit :=
  modify fun p => { p with ranges := p.ranges.filter (·.1 != index) }

def selects (index : Nat) (i : Instruction) : Run Bool := do
  match i.first, i.last with
  | none, _ => return !i.negated
  | some first, none => return (← isAt first) != i.negated
  | some first, some last =>
    let p ← get
    let startsBefore := match first with
      | .line 0 => !p.spent.contains index
      | _ => false
    let active := p.ranges.lookup index
    let found ← if active.isSome || startsBefore then
        match active, last with
        | some (some e), _ =>
          if e ≤ p.number then finish index
          pure (decide (p.number ≤ e))
        | _, .spot s =>
          if ← isAt s then
            finish index
            modify fun p => { p with spent := index :: p.spent }
          pure true
        | _, _ => pure true
      else if ← isAt first then
        match last with
        | .spot (.line e) => begin index (some e)
        | .spot _ => begin index none
        | .plus n => begin index (some (p.number + n))
        | .multiple n => begin index (some (if n = 0 then p.number else (p.number / n + 1) * n))
        pure true
      else pure false
    return found != i.negated

/-- A text with its letters changed: all of them by one mark, the first one by another. -/
def changed (all first : Option Char) (t : Text) : Text :=
  let t := match all with
    | some 'U' => t.map Char.toUpper
    | some 'L' => t.map Char.toLower
    | _ => t
  match first, t with
  | some 'u', c :: rest => c.toUpper :: rest
  | some 'l', c :: rest => c.toLower :: rest
  | _, t => t

def put (subject : Text) (m : Regex.Match) : Option Char → Option Char → List Piece → Text
  | _, _, [] => []
  | all, first, .letters c :: rest =>
    if c = 'E' then put subject m none none rest
    else if c = 'U' || c = 'L' then put subject m (some c) first rest
    else put subject m all (some c) rest
  | all, first, .text t :: rest =>
    changed all first t ++ put subject m all (if t.isEmpty then first else none) rest
  | all, first, .group n :: rest =>
    let t := m.groupText n subject
    changed all first t ++ put subject m all (if t.isEmpty then first else none) rest

def replaceFrom (subject : Text) (pieces : List Piece) (position : Nat) : List Regex.Match → Text
  | [] => subject.drop position
  | m :: rest =>
    (subject.drop position).take (m.first - position) ++ put subject m none none pieces ++
      replaceFrom subject pieces m.last rest

/-- Writes a line to a file, or shows it where the name of the file stands for that. -/
def writeLine (name t : Text) : Run Unit := do
  if name = "/dev/stdout".toList then emit t true
  else if name = "/dev/stderr".toList then modify fun p => { p with aside := (t ++ ['\n']) :: p.aside }
  else
    modify fun p =>
      let before := (p.files.read p.directory name).toOption.getD []
      match p.files.write p.directory name (before ++ t ++ ['\n']) with
      | .ok files => { p with files }
      | .error _ => p

def substitute (s : Substitution) : Run Unit := do
  let (r, manner) ← patternOf s.pattern s.manner
  let t := (← get).space
  let found := (Regex.matchesIn (subjectOf t manner) r).drop (s.index - 1)
  let found := if s.everywhere then found else found.take 1
  unless found.isEmpty do
    modify fun p => { p with space := replaceFrom t s.pieces 0 found, replaced := true }
    if s.prints then emit (← get).space true
    if let some name := s.file then writeLine name (← get).space

def visible (t : Text) : Text :=
  let shown := t.map fun c =>
    match [('\\', "\\\\"), ('\x07', "\\a"), ('\x08', "\\b"), ('\x0c', "\\f"), ('\n', "\\n"),
        ('\r', "\\r"), ('\t', "\\t"), ('\x0b', "\\v")].lookup c with
    | some s => String.toList s
    | none =>
      if 0x20 ≤ c.toNat && c.toNat < 0x7F then [c]
      else
        let digits := Nat.toDigits 8 c.toNat
        '\\' :: List.replicate (3 - digits.length) '0' ++ digits
  let (lines, last) := shown.foldl (fun (s : Text × Text) piece =>
    if 69 < s.2.length + piece.length then (s.1 ++ s.2 ++ ['\\', '\n'], piece)
    else (s.1, s.2 ++ piece)) ([], [])
  lines ++ last ++ ['$']

/-- Takes the next line as the text at hand, or behind it; there may be none. -/
def advance (isBehind : Bool) : Run Bool := do
  let p ← get
  match p.input with
  | [] => return false
  | l :: rest =>
    set { p with
      space := if isBehind then p.space ++ '\n' :: l.text else l.text
      ends := l.ends
      isLast := l.isLast
      file := l.file
      said := p.said ++ l.said
      number := if l.isNew then 1 else p.number + 1
      ranges := if l.isNew then [] else p.ranges
      spent := if l.isNew then [] else p.spent
      input := rest }
    return true

def flush : Run Unit := do
  let p ← get
  set { p with queue := [] }
  for t in p.queue do emitRaw t

def present (isQuiet : Bool) : Run Unit := do
  unless isQuiet do
    let p ← get
    emit p.space p.ends

/-- The number of the command behind a label; without a label it is the end. -/
def target (program : Array Instruction) (name : Text) : Nat :=
  if name.isEmpty then program.size
  else (program.findIdx? fun i => match i.action with
    | .label n => n == name
    | _ => false).getD program.size

def commands (isQuiet : Bool) (program : Array Instruction) : Nat → Nat → Run Ending
  | 0, _ => return .quit false 4
  | fuel + 1, index => do
    match program[index]? with
    | none => return .shown
    | some i =>
      let next := commands isQuiet program fuel (index + 1)
      if !(← selects index i) then
        match i.action with
        | .block behind => commands isQuiet program fuel behind
        | _ => next
      else
        let p ← get
        match i.action with
        | .block _ | .label _ => next
        | .substitute s =>
          substitute s
          next
        | .translate pairs =>
          set { p with space := p.space.map fun c => (pairs.lookup c).getD c }
          next
        | .text 'i' t =>
          emitRaw t
          next
        | .text 'a' t =>
          set { p with queue := p.queue ++ [t] }
          next
        | .text _ t =>
          if i.last.isNone || i.negated || (p.ranges.lookup index).isNone then emitRaw t
          return .dropped
        | .jump kind name =>
          let goes := match kind with
            | 'b' => true
            | 't' => p.replaced
            | _ => !p.replaced
          if kind != 'b' then set { p with replaced := false }
          if goes then commands isQuiet program fuel (target program name) else next
        | .quit shows status => return .quit shows status
        | .file 'r' name =>
          let path := if name = "/dev/stdin".toList then [] else name
          match p.files.read p.directory path with
          | .ok t => set { p with queue := p.queue ++ [t] }
          | .error _ => pure ()
          next
        | .file 'w' name =>
          writeLine name p.space
          next
        | .file 'W' name =>
          writeLine name (p.space.takeWhile (· != '\n'))
          next
        | .file _ _ => next
        | .letter c => match c with
          | 'p' =>
            emit p.space p.ends
            next
          | 'P' =>
            emit (p.space.takeWhile (· != '\n')) true
            next
          | 'd' => return .dropped
          | 'D' =>
            if p.space.contains '\n' then
              set { p with space := (p.space.dropWhile (· != '\n')).drop 1 }
              return .again
            else return .dropped
          | 'n' =>
            if p.isLast then return .shown
            else
              present isQuiet
              flush
              let _ ← advance false
              next
          | 'N' =>
            if p.isLast then return .shown
            else
              flush
              let _ ← advance true
              next
          | 'h' =>
            set { p with held := p.space }
            next
          | 'H' =>
            set { p with held := p.held ++ '\n' :: p.space }
            next
          | 'g' =>
            set { p with space := p.held }
            next
          | 'G' =>
            set { p with space := p.space ++ '\n' :: p.held }
            next
          | 'x' =>
            set { p with space := p.held, held := p.space }
            next
          | 'z' =>
            set { p with space := [] }
            next
          | '=' =>
            emit (Text.ofNat p.number) true
            next
          | 'F' =>
            emit p.file true
            next
          | 'l' =>
            emit (visible p.space) true
            next
          | _ => next

def commandLimit : Nat := 1000000

/-- Carries out the commands for each line, at most so many times; `isFresh` says that a line
is to be read first. Gives the status, if a command has put an end to it. -/
def lines (isQuiet : Bool) (program : Array Instruction) : Nat → Bool → Run (Option Nat)
  | 0, _ => return some 4
  | fuel + 1, isFresh => do
    let goesOn ← if isFresh then advance false else pure true
    if !goesOn then return none
    else
      if isFresh then modify fun p => { p with replaced := false }
      match ← commands isQuiet program commandLimit 0 with
      | .shown =>
        present isQuiet
        flush
        lines isQuiet program fuel true
      | .dropped =>
        flush
        lines isQuiet program fuel true
      | .again =>
        flush
        lines isQuiet program fuel false
      | .quit shows status =>
        if shows then
          present isQuiet
          flush
        return some status

end Run

def linesOfFile (name t : Text) : List Line :=
  let (parts, isOpen) := splitLines t
  let count := parts.length
  parts.zipIdx.map fun (text, i) => { text, file := name, ends := i + 1 < count || !isOpen }

def markLast (ls : List Line) : List Line :=
  let count := ls.length
  ls.zipIdx.map fun (l, i) => { l with isLast := i + 1 == count }

def cleared (files : FileTree) (directory : Text) (program : List Instruction) : FileTree :=
  (writtenFiles program).foldl (fun files name =>
    if "/dev/".toList.isPrefixOf name then files
    else (files.write directory name []).toOption.getD files) files

/-- What editing comes to: what is shown and said, the status if a command has put an end to
it, and the files. -/
structure Result where
  out : Text
  err : Text
  quit : Option Nat
  files : FileTree

def edit (isQuiet : Bool) (program : List Instruction) (files : FileTree) (directory : Text)
    (ls : List Line) : Except Text Result :=
  let start : Progress := { input := ls, files, directory }
  match (Run.lines isQuiet program.toArray (2 * ls.length + 1000000) true).run.run start with
  | (.ok quit, p) => .ok ⟨p.out.reverse.flatten, p.said ++ p.aside.reverse.flatten, quit, p.files⟩
  | (.error e, _) => .error e

/-- The position in the last of the parts of a script, which are numbered from one, when the
parts are read one behind the other. -/
def locate (position : Nat) : Nat → List Text → Nat × Nat
  | n, t :: rest =>
    if position ≤ t.length || rest.isEmpty then (n, position)
    else locate (position - t.length - 1) (n + 1) rest
  | n, [] => (n, position)

end Edit

structure InPlace where
  files : FileTree
  err : Text := []
  status : Nat := 0
  hasQuit : Bool := false

open Edit in
def editInPlace (c : Call) (isQuiet follows : Bool) (suffix : Text) (program : List Instruction)
    (operands : List Text) : Reply :=
  let step (s : InPlace) (path : Text) : InPlace :=
    if s.hasQuit then s
    else match s.files.find c.directory path with
      | .error e =>
        { s with err := s.err ++ c.message ("can't read " ++ path ++ ": " ++ e.text), status := 4 }
      | .ok (_, .file content isExecutable) =>
        match edit isQuiet program s.files c.directory (markLast (linesOfFile path content)) with
        | .ok r =>
          let kept := if suffix.isEmpty then r.files
            else (r.files.write c.directory (path ++ suffix) content).toOption.getD r.files
          { s with
            files := if follows then (kept.write c.directory path r.out).toOption.getD kept
              else match kept.place c.directory path false with
                | .ok place => (kept.prune place).put place (.file r.out isExecutable)
                | .error _ => kept
            err := s.err ++ r.err
            status := r.quit.getD s.status
            hasQuit := r.quit.isSome }
        | .error e =>
          { s with err := s.err ++ c.message ("-e expression #1, char 0: " ++ e), status := 1 }
      | .ok _ =>
        { s with
          err := s.err ++ c.message ("couldn't edit " ++ path ++ ": not a regular file")
          status := 4 }
  let after := operands.foldl step { files := cleared c.files c.directory program }
  { printed := [(2, after.err)], status := after.status, files := some after.files }

/-- The lines of some files, one behind the other. What is said of a file that cannot be read
comes before the next line, or is left over. -/
def Edit.linesOf (c : Call) (separate : Bool) :
    List (Text × Except FileFault Text) → Text → List Edit.Line × Text
  | [], said => ([], said)
  | (path, content) :: rest, said =>
    match content with
    | .error fault =>
      let message := match fault with
        | .isDirectory => c.message ("couldn't read " ++ path ++ ": Is a directory")
        | fault => c.message ("can't read " ++ path ++ ": " ++ fault.text)
      Edit.linesOf c separate rest (said ++ message)
    | .ok t =>
      let ls := (Edit.linesOfFile path t).zipIdx.map fun (l, i) =>
        { l with said := if i = 0 then said else [], isNew := separate && i == 0 }
      let (more, left) := Edit.linesOf c separate rest (if ls.isEmpty then said else [])
      ((if separate then Edit.markLast ls else ls) ++ more, left)

open Edit in
def sed (c : Call) : Reply :=
  let usage := ("Usage: ".toList ++ c.name ++
    " [OPTION]... \x7bscript-only-if-no-other-script\x7d [input-file]...\n\n".toList)
  let forms := [flag 'n' "quiet", flag 'n' "silent", valued 'e' "expression", valued 'f' "file",
    flag 'E' "regexp-extended", flag 'r', flag 's' "separate", flag 'u' "unbuffered",
    flag 'z' "null-data", flag 'p' "posix", valued 'l' "line-length", flag 'i', flag 'k' "in-place",
    flag 'F' "follow-symlinks"]
  -- The ending for copies stands in the word of its option, or is left out.
  let suffixOf (w : Text) : Option Text :=
    if ['-', 'i'].isPrefixOf w then some (w.drop 2)
    else if "--in-place=".toList.isPrefixOf w then some (w.drop "--in-place=".length)
    else none
  let suffix := (c.arguments.filterMap suffixOf).getLast?
  let arguments := c.arguments.map fun w => if (suffixOf w).isSome then ['-', 'i'] else w
  match Options.readFrom forms true {} (arguments.length + 1) arguments with
  | .error fault => { printed := [(2, c.message fault.text ++ usage)], status := 1 }
  | .ok o =>
    let given := o.options.filterMap fun (l, v) =>
      if l = 'e' then some (.ok v)
      else if l = 'f' then some ((c.content v).map (Text.trimEnd (· == '\n')))
      else none
    let (parts, operands) := if given.isEmpty then
        ((o.operands.take 1).map Except.ok, o.operands.drop 1) else (given, o.operands)
    match (parts.mapM id : Except FileFault (List Text)) with
    | .error e =>
      Reply.failed (c.name ++ ": couldn't open file " ++ (o.value? 'f').getD [] ++ ": " ++ e.text)
    | .ok [] => { printed := [(2, usage)], status := 1 }
    | .ok parts =>
      let script := ['\n'].intercalate parts
      let isQuiet := o.has 'n' || ['#', 'n'].isPrefixOf script
      match Edit.read (o.has 'E' || o.has 'r') script with
      | .error e =>
        let (part, position) := locate e.position 1 parts
        Reply.failed (c.name ++ ": -e expression #" ++ Text.ofNat part ++ ", char " ++
          Text.ofNat position ++ ": " ++ e.text)
      | .ok program => match missingLabel? program with
        | some name =>
          Reply.failed (c.name ++ ": can't find label for jump to `" ++ name ++ ['\'']) 4
        | none =>
          if o.has 'i' || o.has 'k' then editInPlace c isQuiet (o.has 'F') (suffix.getD []) program operands
          else
            let (ls, left) := Edit.linesOf c (o.has 's') (c.contents operands) []
            let ls := if o.has 's' then ls else markLast ls
            match edit isQuiet program (cleared c.files c.directory program) c.directory ls with
            | .ok r =>
              let unread := if r.quit.isSome then [] else left
              let hasFault := (c.contents operands).any fun (_, r) => match r with
                | .ok _ => false
                | .error _ => true
              {
                printed := [(2, r.err ++ unread), (1, r.out)]
                status := r.quit.getD (if hasFault then 2 else 0)
                files := some r.files
                readsInput := Call.usesInput operands
                stopsEarly := r.quit.isSome }
            | .error e => Reply.failed (c.name ++ ": -e expression #1, char 0: " ++ e)

end Tool
end TypedCommand
