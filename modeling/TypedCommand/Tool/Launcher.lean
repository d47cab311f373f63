import TypedCommand.Shell.Format
import TypedCommand.Tool.Say

/-!
Programs that start others: with other variables, once for each part of what they read, or
for a limited time. They report what cannot be started, each in its own words.
-/

namespace TypedCommand

namespace Tool

def Procedure.once (words : List Text) : Procedure := .starts words .ended

def Reply.starting (words : List Text) (naming : Text → Text) : Reply :=
  { sequel := some { procedure := .once words, naming } }

def failedToRun (name : Text) : Text := "failed to run command ".toList ++ Call.quoteAlways name

def shownVariables (ending : Char) (bindings : List (Text × Text)) : Text :=
  bindings.flatMap fun (name, value) => name ++ '=' :: value ++ [ending]

def putVariable (bindings : List (Text × Text)) (name value : Text) : List (Text × Text) :=
  if bindings.any (·.1 == name) then
    bindings.map fun e => if e.1 = name then (name, value) else e
  else bindings ++ [(name, value)]

def env (c : Call) : Reply :=
  let forms := [flag 'i' "ignore-environment", valued 'u' "unset", flag '0' "null", valued 'C' "chdir",
    valued 'S' "split-string", flag 'v' "debug"]
  let run (o : Options) : Reply :=
    let clears := o.has 'i' || o.operands.head? == some ['-']
    let words := if o.operands.head? = some ['-'] then o.operands.drop 1 else o.operands
    let removed := (o.options.filter (·.1 == 'u')).map Prod.snd
    match removed.find? fun name => name.isEmpty || name.contains '=' with
    | some bad =>
      Reply.failed (c.name ++ ": cannot unset " ++ Call.quoteAlways bad ++ ": Invalid argument") 125
    | none =>
      let base := if clears then [] else c.bindings.entries
      let kept := base.filter fun e => !removed.contains e.1
      let assignments := words.takeWhile (·.contains '=')
      let bindings := assignments.foldl (fun vs w =>
        let name := w.takeWhile (· != '=')
        putVariable vs name (w.drop (name.length + 1))) kept
      let split := ((o.value? 'S').map Text.words).getD []
      match split ++ words.drop assignments.length with
      | [] => .ofText (shownVariables (if o.has '0' then Char.ofNat 0 else '\n') bindings)
      | command =>
        if o.has '0' then c.misused "cannot specify --null (-0) with command" 125
        else { sequel := some {
          procedure := .once command
          bindings := some (SortedMap.ofList bindings)
          naming := Call.quoteAlways } }
  c.withOptions forms run 125 false

def printenv (c : Call) : Reply :=
  c.withOptions [flag '0' "null"] (fun o =>
    let ending := if o.has '0' then Char.ofNat 0 else '\n'
    if o.operands.isEmpty then .ofText (shownVariables ending c.bindings.entries)
    else
      let values := o.operands.map c.bindings.get?
      { printed := [(1, values.flatMap fun v => match v with
          | some t => t ++ [ending]
          | none => [])]
        status := if values.all Option.isSome then 0 else 1 }) 2

def nohup (c : Call) : Reply :=
  let run (o : Options) : Reply :=
    if o.operands.isEmpty then c.misused "missing operand" 125
    else Reply.starting o.operands failedToRun
  c.withOptions [] run 125 false

def nice (c : Call) : Reply :=
  let isShort (w : Text) : Bool := match w with
    | '-' :: c :: rest => Text.isDigits (if c = '-' || c = '+' then rest else c :: rest)
    | _ => false
  let short := c.arguments.takeWhile isShort
  let run (o : Options) : Reply :=
    let adjustment := (o.value? 'n').or (short.getLast?.map (·.drop 1))
    match adjustment.map fun t => (Text.splitSign t).2 with
    | some digits =>
      if !Text.isDigits digits then
        Reply.failed (c.name ++ ": invalid adjustment " ++ Text.inQuotes (adjustment.getD [])) 125
      else if o.operands.isEmpty then c.misused "a command must be given with an adjustment" 125
      else Reply.starting o.operands Call.quoteAlways
    | none =>
      if o.operands.isEmpty then .ofText "0\n" else Reply.starting o.operands Call.quoteAlways
  { c with arguments := c.arguments.drop short.length }.withOptions [valued 'n' "adjustment"] run 125 false

def setsid (c : Call) : Reply :=
  let run (o : Options) : Reply := Reply.starting o.operands failedToRun
  c.withOptions [flag 'c' "ctty", flag 'f' "fork", flag 'w' "wait"] run 1 false

/-- Starts a program and ends it when its time is over, for which a limit of zero stands for
no limit. -/
def timeout (c : Call) : Reply :=
  let forms := [valued 's' "signal", valued 'k' "kill-after", flag 'f' "foreground",
    flag 'p' "preserve-status", flag 'v' "verbose"]
  let run (o : Options) : Reply :=
    match o.operands with
    | limit :: command :: arguments =>
      let words := command :: arguments
      if !Duration.isValid limit then
        c.misused ("invalid time interval " ++ Text.inQuotes limit) 125
      else match Duration.thousandths? limit with
        | none | some 0 => Reply.starting words failedToRun
        | some allowed =>
          let signal := (o.value? 's').getD "TERM"
          let isKill := ["KILL", "9", "SIGKILL"].contains (String.ofList signal)
          let said : Text := if !o.has 'v' then []
            else c.message ("sending signal " ++ signal ++ " to command " ++ Call.quoteAlways command)
          let after (status : Option Nat) : Procedure := match status with
            | some n => .ended n
            | none => .shows 2 (said ++ if isKill then "Killed\n".toList else []) fun _ =>
              .ended (if isKill then 137 else if o.has 'p' then 143 else 124)
          { sequel := some { procedure := .limits allowed words after, naming := failedToRun } }
    | _ => { printed := [(2, c.hint)], status := 125 }
  c.withOptions forms run 125 false

/-- The parts that commands are built from: words with their quotation marks taken away and
whether a line ends behind each, or what is wrong with a mark. -/
def quotedWords (t : Text) : Except Char (List (Text × Bool)) :=
  let state : Type := List (Text × Bool) × Text × Bool × Option Char × Bool
  let close (s : state) (ends : Bool) : state :=
    let (done, word, isOpen, _, _) := s
    -- A line that ends with a blank goes on with the next one.
    (if isOpen then (word, ends) :: done else done, [], false, none, false)
  let step (s : Except Char state) (c : Char) : Except Char state := do
    let (done, word, isOpen, mark, escaped) ← s
    if escaped then return (done, word ++ [c], true, mark, false)
    else match mark with
      | some m =>
        if c = m then return (done, word, true, none, false)
        else if c = '\n' then throw m
        else return (done, word ++ [c], true, mark, false)
      | none =>
        if c = '\\' then return (done, word, true, none, true)
        else if c = '\'' || c = '"' then return (done, word, true, some c, false)
        else if c = '\n' then return close (done, word, isOpen, mark, escaped) true
        else if c = ' ' || c = '\t' then return close (done, word, isOpen, mark, escaped) false
        else return (done, word ++ [c], true, none, false)
  match t.foldl step (.ok ([], [], false, none, false)) with
  | .error m => .error m
  | .ok s => match s.2.2.2.1 with
    | some m => .error m
    | none => .ok (close s true).1.reverse

/-- What one command can take: so many words, so many lines, and so much text, where a byte
behind each word counts as well. Text that does not fit may put an end to everything. -/
structure Capacity where
  words : Option Nat := none
  lines : Option Nat := none
  size : Nat := 131072
  isStrict : Bool := false

/-- The words of a command so far, the last of them first, with what they take. -/
structure Batch where
  words : List Text := []
  count : Nat := 0
  lines : Nat := 0
  size : Nat := 0

def Batch.closed (b : Batch) : List (List Text) := if b.words.isEmpty then [] else [b.words.reverse]

def Batch.push (b : Batch) (word : Text) (ends : Bool) : Batch := {
  words := word :: b.words
  count := b.count + 1
  lines := b.lines + if ends then 1 else 0
  size := b.size + word.length + 1 }

/-- The words of each command, and what is wrong with the word behind them, if anything. Of
each word is said whether a line ends behind it. -/
def Capacity.batches (k : Capacity) (b : Batch) :
    List (Text × Bool) → List (List Text) × Option Text
  | [] => (b.closed, none)
  | (word, ends) :: rest =>
    let fits := b.size + word.length + 1 ≤ k.size
    if k.size < word.length + 1 then (b.closed, some "argument line too long")
    else if !fits && k.isStrict then ([], some "argument list too long")
    else
      let before := if fits then [] else b.closed
      let next := (if fits then b else {}).push word ends
      let isFull := k.words == some next.count || k.lines == some next.lines
      let (more, problem) := k.batches (if isFull then {} else next) rest
      (before ++ (if isFull then next.closed else []) ++ more, problem)

def replaceAll (mark value : Text) : Nat → Text → Text
  | 0, t => t
  | _, [] => []
  | n + 1, c :: rest =>
    if !mark.isEmpty && mark.isPrefixOf (c :: rest) then
      value ++ replaceAll mark value n ((c :: rest).drop mark.length)
    else c :: replaceAll mark value n rest

/-- Starts commands one after the other, as long as none of them puts an end to it, and goes
on as the status says; `status` is the one so far. -/
def startAll (c : Call) (told : Bool) (last : Nat → Procedure) (status : Nat) :
    List (List Text) → Procedure
  | [] => last status
  | command :: rest =>
    let name := command.headD []
    let start : Procedure := .starts command fun ended =>
      if ended = 255 then
        .shows 2 (c.message (name ++ ": exited with status 255; aborting")) fun _ => .ended 124
      else if ended = 126 ∨ ended = 127 then .ended ended
      else if 128 < ended then
        .shows 2 (c.message (name ++ ": terminated by signal " ++ Text.ofNat (ended - 128))) fun _ => .ended 125
      else startAll c told last (if ended = 0 then status else 123) rest
    if told then .shows 2 ([' '].intercalate (command.map Call.quoteName) ++ ['\n']) fun _ => start else start

def delimiterOf? (t : Text) : Option Char :=
  match t with
  | [c] => some c
  | '\\' :: rest => match Shell.Format.escape .extended rest with
    | ([c], []) => some c
    | _ => none
  | _ => none

def xargs (c : Call) : Reply :=
  let forms := [flag '0' "null", valued 'd' "delimiter", valued 'I' "replace", valued 'n' "max-args",
    valued 'L' "max-lines", flag 'r' "no-run-if-empty", flag 't' "verbose", valued 'P' "max-procs",
    valued 's' "max-chars", flag 'x' "exit", valued 'a' "arg-file", valued 'E' "eof", flag 'o' "open-tty",
    flag 'i', flag 'p' "interactive"]
  let run (o : Options) : Reply :=
    let number (l : Char) : Option (Option Nat) := (o.value? l).map natural?
    let bad := "nLPs".toList.find? fun l => match number l with
      | some none => true
      | some (some 0) => l == 'n' || l == 'L'
      | _ => false
    match bad with
    | some l =>
      let given := (o.value? l).getD []
      let said : Text := if (natural? given).isNone then
          "invalid number \"" ++ given ++ "\" for -" ++ l :: " option".toList
        else "value " ++ given ++ " for -" ++ l :: " option should be >= 1".toList
      c.misused said
    | none =>
      match (o.value? 'a').map c.content with
      | some (.error e) =>
        Reply.failed (c.name ++ ": Cannot open input file " ++
          Call.quoteAlways ((o.value? 'a').getD []) ++ ": " ++ e.text)
      | source =>
        let command := if o.operands.isEmpty then ["echo".toList] else o.operands
        let mark := if o.has 'i' then some "\x7b\x7d".toList else o.value? 'I'
        let delimiter := if o.has '0' then some (Char.ofNat 0) else (o.value? 'd').bind delimiterOf?
        let isCut := c.inputIsCut && source.isNone
        let input := match source with
          | some (.ok t) => t
          | _ =>
            -- What stands behind the last whole item waits for the rest of it.
            if isCut then Text.trimEnd (· != delimiter.getD '\n') c.input else c.input
        let cutAt (d : Char) : List Text :=
          let parts := input.splitOn d
          if parts.getLast? = some [] then parts.dropLast else parts
        let items : Except Char (List (Text × Bool)) := match delimiter, mark with
          | some d, _ => .ok ((cutAt d).map ((·, true)))
          | none, some _ =>
            (linesOf input).foldlM (fun (done : List (Text × Bool)) line => do
              let line := line.dropWhile fun c => c == ' ' || c == '\t'
              -- A line is one word here, whatever blanks stand in it.
              let shown ← quotedWords (line.flatMap fun ch =>
                if ch = ' ' || ch = '\t' then ['\\', ch] else [ch])
              return done ++ shown.map fun e => (e.1, true)) []
          | none, none => quotedWords input
        match items with
        | .error m =>
          Reply.failed (c.name ++ ": unmatched " ++ (if m = '\'' then "single" else "double") ++
            " quote; by default quotes are special to xargs unless you use the -0 option")
        | .ok items =>
          let taken := command.foldl (fun n w => n + w.length + 1) 0
          let given := ((number 's').bind id).getD 131072
          let capacity : Capacity := {
            words := if (number 'L').isSome then none else (number 'n').bind id
            lines := (number 'L').bind id
            size := given - taken
            isStrict := (number 'L').isSome || (o.has 'x' && (number 'n').isSome) }
          let (groups, problem) := match mark with
            | some mark =>
              (items.map fun (w, _) => command.map fun part =>
                replaceAll mark w (part.length + 1) part, none)
            | none =>
              let (groups, problem) := capacity.batches {} items
              let groups := if isCut then groups.dropLast else groups
              let runsOnce := groups.isEmpty && problem.isNone && !isCut && !o.has 'r'
              ((if runsOnce then [[]] else groups).map (command ++ ·), problem)
          let last (status : Nat) : Procedure := match problem with
            | some said => .shows 2 (c.message said) fun _ => .ended 1
            | none => if isCut then .waits (.ended status) else .ended status
          if given < taken then
            Reply.failed (c.name ++ ": cannot fit single argument within argument list size limit")
          else { readsInput := source.isNone
                 sequel := some { procedure := startAll c (o.has 't') last 0 groups } }
  c.withOptions forms run 1 false

end Tool
end TypedCommand
