import TypedCommand.Shell.Dispatch
import TypedCommand.Shell.Redirection

/-!
Commands carried out. A command runs what it is made of; functions, texts and other shells
come from an engine, and an engine rests on one that is a level lower, so that nothing goes
on for ever.
-/

namespace TypedCommand

namespace Shell

namespace Act

def declares (words : List Word) : Bool :=
  match words with
  | w :: _ => (w.plain?.map String.ofList).any ["export", "readonly", "local"].contains
  | [] => false

def argumentsOf (g : Engine) (words : List Word) : Act (List Text) := do
  let declaration := declares words
  let found ← words.mapM fun w => do
    if declaration && (assignment? w).isSome then return [← wordText (outputOf g) .colons w]
    else wordsOf (outputOf g) w
  return found.flatten

def trace (channel : Option Nat) (assignments : List (Text × Text)) (words : List Text) : Act Unit := do
  let p ← process
  if p.options.traces then
    let shown := assignments.map (fun (name, value) => name ++ '=' :: value) ++ words
    let mark := (← valueOf? "PS4").getD []
    modifyProcess fun p => { p with descriptors :=
      match channel with
      | some n => (2, n) :: p.descriptors
      | none => p.descriptors }
    err (mark ++ [' '].intercalate shown ++ ['\n'])
    modifyProcess fun q => { q with descriptors := p.descriptors }

/-- Carries out assignments one after the other, and gives the values; the variables may be
passed on. -/
def assignAll (g : Engine) (passesOn : Bool) : List (Text × Word) → Act (List (Text × Text))
  | [] => return []
  | (name, w) :: rest => do
    let value ← wordText (outputOf g) .colons w
    assign name value
    if passesOn then modifyProcess fun p =>
      let v := (p.bindings.get? name).getD {}
      { p with bindings := p.bindings.insert name { v with isExported := true } }
    return (name, value) :: (← assignAll g passesOn rest)

def withVariables (names : List Text) (act : Act Unit) : Act Unit := do
  let p ← process
  let kept := names.map fun name => (name, p.bindings.get? name)
  ensuring act (modifyProcess fun p => { p with bindings := p.bindings.restore kept })

/-- A simple command: its words are expanded, its redirections followed, its variables
assigned, and then it is run. -/
def simple (g : Engine) (assignments : List (Text × Word)) (words : List Word)
    (redirections : List Redirection) : Act Unit := do
  if (← process).options.onlyReads then return
  modifyProcess fun p => { p with inner := none }
  let arguments ← argumentsOf g words
  let targets ← redirections.mapM (targetOf g)
  let before := (← process).descriptors
  let name := arguments.headD []
  let isSpecial := !arguments.isEmpty && specialCommands.contains name &&
    (← process).dialect = .common
  let restore := modifyProcess fun p => { p with descriptors := before }
  if !(← followAll targets) then
    restore
    let status ← redirectionStatus
    if isSpecial then throw (.fail status)
    setStatus status
  else
    let run : Act Unit := do
      let carryOut (values : List (Text × Text)) : Act Unit := do
        trace (before.lookup 2) values arguments
        if arguments.isEmpty then setStatus ((← process).inner.getD 0)
        else dispatch g false false 8 arguments
      if arguments.isEmpty || isSpecial then carryOut (← assignAll g false assignments)
      else if assignments.isEmpty then carryOut []
      else withVariables (assignments.map Prod.fst) do
        carryOut (← assignAll g true assignments)
    if name = "exec".toList && arguments.length = 1 then run else ensuring run restore
  answerSignals g
  checkFailure

def turn (body : Act Unit) : Act Bool := do
  let p ← process
  match ← jumpOf body with
  | none => return true
  | some (.stopLoop n) =>
    modifyProcess fun q => { q with isTested := p.isTested }
    if n ≤ 1 then return false else throw (.stopLoop (n - 1))
  | some (.nextTurn n) =>
    modifyProcess fun q => { q with isTested := p.isTested }
    if n ≤ 1 then return true else throw (.nextTurn (n - 1))
  | some j => throw j

def inLoop (act : Act Unit) : Act Unit := do
  let depth := (← process).loops
  modifyProcess fun p => { p with loops := depth + 1 }
  ensuring act (modifyProcess fun p => { p with loops := depth })

def turns (isUntil : Bool) (test body : Act Unit) : Nat → Act Unit
  | 0 => throw .exhausted
  | n + 1 => do
    let before ← status
    let goesOn ← turn do
      tested test
    if !goesOn then setStatus 0
    else if ((← status) = 0) = isUntil then setStatus before
    else if ← turn body then turns isUntil test body n
    else setStatus 0

def turnsOver (name : Text) (body : Act Unit) : List Text → Act Unit
  | [] => return
  | w :: rest => do
    assign name w
    if ← turn body then turnsOver name body rest else setStatus 0

def itemsOf (g : Engine) : Option (List Word) → Act (List Text)
  | some ws => do
    let found ← ws.mapM (wordsOf (outputOf g))
    return found.flatten
  | none => do return (← process).arguments

def turnLimit : Nat := 200000

def followers : Command → Nat
  | .pipe _ right => followers right + 1
  | _ => 0

def inBackground (body : Command) : Act Unit := do
  let number := (← world).nextProcess
  modifyWorld fun w => { w with nextProcess := number + 1 }
  let silent ← newChannel .nowhere
  let p ← process
  let ignored := p.traps.entries.filter fun e => e.2.isEmpty
  let child := { p with
    descriptors := (0, silent) :: p.descriptors.filter (fun e => e.1 != 0)
    traps := SortedMap.ofList (("INT".toList, []) :: ("QUIT".toList, []) :: ignored)
    lineage := (p.number, p.traps) :: p.lineage
    jobs := []
    successor := if body matches .simple .. then some number else none
    isTested := false }
  let start := (← world).clock
  modify fun s => { s with waiting := s.waiting ++ [{ number, start, process := child, body }] }
  let place := Job.freePlace p.jobs
  let job : Job := { place, number, followers := followers body }
  modifyProcess fun p => { p with
    jobs := job :: p.jobs.filter (·.place != place)
    background := some number
    status := 0 }

/-- How much the first command of a pipe can write before the second has come to its end: as
much as a pipe holds, and more if the second wants more. -/
def pipeRooms : List Nat := [65536, 1048576, 16777216]

/-- Runs a command, and gives its status and the sink that it waits for in the end, if it
does. -/
def statusOrWait (act : Act Nat) : Act (Nat × Option Nat) := do
  try
    let status ← act
    return (status, none)
  catch
    | .starved sink => return (0, some sink)
    | j => throw j

/-- Runs two commands, the second of which reads what the first writes. The first is ended
when it has written more than there is room for. If it turns out that the second wants to
read on, everything begins again with more room. -/
def connect (g : Engine) (left right : Act Unit) : List Nat → Act Unit
  | [] => throw .exhausted
  | room :: more => do
    let before ← get
    let sink ← newChannel (.sink { room := some room })
    let (first, waited) ← statusOrWait <| inCopy g do
      setDescriptor 1 (some sink)
      left
    let (text, isCut) := match (← world).channels[sink]? with
      | some (.sink s) => (textOf (.sink s), s.isCut)
      | _ => ([], false)
    let source ← newChannel (.source text (if isCut then some sink else waited))
    let (last, wanted) ← statusOrWait <| inCopy g do
      setDescriptor 0 (some source)
      right
    match wanted with
    | none => setStatus (if last = 0 && (← process).options.failsInPipes then first else last)
    | some other =>
      if other = sink then
        set before
        connect g left right more
      else throw (.starved other)

def evaluate (g : Engine) (subject : Text) : Command → Act Unit
  | .nothing => return
  | .simple line assignments words redirections => do
    atLine line
    simple g assignments words redirections
  | .redirected line redirections body => do
    atLine line
    withRedirections g redirections (evaluate g [] body)
    checkFailure
  | .pipe left right => do
    takePlace
    connect g (evaluate g [] left) (evaluate g [] right) pipeRooms
    answerSignals g
    checkFailure
  | .both left right => do
    tested (evaluate g [] left)
    if (← status) = 0 then evaluate g [] right
  | .either left right => do
    tested (evaluate g [] left)
    if (← status) ≠ 0 then evaluate g [] right
  | .sequence left right => do
    evaluate g [] left
    evaluate g [] right
  | .negated body => do
    tested (evaluate g [] body)
    setStatus (if (← status) = 0 then 1 else 0)
  | .background body => inBackground body
  | .subshell line body => do
    atLine line
    takePlace
    setStatus (← inCopy g (evaluate g [] body))
    answerSignals g
    checkFailure
  | .conditional test yes no => do
    tested (evaluate g [] test)
    if (← status) = 0 then evaluate g [] yes
    else
      setStatus 0
      evaluate g [] no
  | .loop isUntil test body => do
    setStatus 0
    inLoop (turns isUntil (evaluate g [] test) (evaluate g [] body) turnLimit)
  | .each line name items body => do
    atLine line
    let words ← itemsOf g items
    setStatus 0
    inLoop (turnsOver name (evaluate g [] body) words)
  | .choose line w arms => do
    atLine line
    let t ← wordText (outputOf g) .front w
    setStatus 0
    evaluate g t arms
  | .arm patterns body rest => do
    let isChosen ← patterns.anyM fun w => do
      return Pattern.isMatch (← patternOf (outputOf g) w) subject
    if isChosen then evaluate g [] body else evaluate g subject rest
  | .define name body => do
    modifyProcess fun p => { p with functions := p.functions.insert name body }
    setStatus 0
  | .condition line words => do
    atLine line
    let ws ← words.mapM (wordText (outputOf g) .front)
    setStatus (← Builtin.test ws)
    checkFailure
  | .compute line expression => do
    atLine line
    let n ← compute (← wordText (outputOf g) .nowhere expression)
    setStatus (if n = 0 then 1 else 0)
    checkFailure

/-- Reads and carries out the lines of a text, one after the other, and shows them first if
that is asked for. -/
def runLines (g : Engine) (shows : Bool) : Nat → Reader → Act Unit
  | 0, _ => throw .exhausted
  | n + 1, r => do
    if r.isDone then return
    else
      let p ← process
      let aliases := if p.dialect = .common then p.aliases else SortedMap.empty
      match readLine { r with aliases, replaced := [] } with
      | .error e => failRead e
      | .ok (c, rest) =>
        if shows && p.options.echoesInput then
          err (r.rest.take (r.rest.length - rest.rest.length))
        g.command c
        runLines g shows n rest

def runScript (g : Engine) (shows : Bool) (t : Text) : Act Unit := do
  let r : Reader := { rest := t, dialect := (← process).dialect }
  runLines g shows (t.length + 1) r

def beginning (dialect : Dialect) (directory : Text) (parent : Nat) (vs : SortedMap Variable) : SortedMap Variable :=
  let plain (t : Text) : Variable := { value := some t }
  let usual : List (Text × Text) := match dialect with
    | .common => [("PS1", "# "), ("PS2", "> "), ("PS4", "+ "), ("OPTIND", "1"), ("IFS", " \t\n")]
    | .extended => [("PS4", "+ "), ("OPTIND", "1"), ("IFS", " \t\n"), ("BASH", "/usr/bin/bash")]
  let vs := usual.foldl (fun (vs : SortedMap Variable) (name, t) => vs.insert name (plain t)) vs
  let vs := vs.insert "PPID" (plain (Text.ofNat parent))
  let vs := vs.insert "PWD" { value := some directory, isExported := true }
  if (vs.get? "PATH").isSome then vs
  else vs.insert "PATH" (plain "/usr/local/sbin:/usr/local/bin:/usr/sbin:/usr/bin:/sbin:/bin")

/-- Reads the options that a shell is started with; whether a text is given as an argument,
and what is left. -/
def startOptions : Nat → Bool → List Text → Act (Bool × List Text)
  | 0, given, rest => return (given, rest)
  | _, given, [] => return (given, [])
  | n + 1, given, w :: rest => do
    if w = "--".toList ∨ w = ['-'] then return (given, rest)
    else match w with
      | '-' :: c :: more =>
        let asked := (c :: more).contains 'c'
        let others := (c :: more).filter fun c => c != 'c' && c != 'l'
        startOptions n (given || asked) (← Builtin.setLetters true others rest)
      | '+' :: more => startOptions n given (← Builtin.setLetters false more rest)
      | _ => return (given, w :: rest)

/-- The route to the working directory that a shell begins with: what it is given as such,
if it leads there. -/
def routeOf (t : FileTree) (p : Process) : Text :=
  match (p.bindings.get? "PWD").bind (·.value) with
  | some path =>
    if path.head? = some '/' && (t.find? ['/'] path).any (·.1 == p.directory) then path
    else p.directory
  | none => p.directory

/-- A shell as a program: carries out the text that it is given, a file, or what it reads. -/
def runShell (g : Engine) (dialect : Dialect) : List Text → Act Unit
  | [] => return
  | name :: words => do
    let tree ← files
    modifyProcess fun p => { p with route := routeOf tree p }
    modifyProcess fun p => { p with
      name, dialect, line := 0, status := 0, arguments := [], options := {}, called := [],
      optionOffset := 0, inner := none, mask := p.mask, recursion := 0
      bindings := beginning dialect p.route ((p.lineage.head?.map Prod.fst).getD 1) p.bindings }
    let (given, rest) ← startOptions (words.length + 1) false words
    Builtin.settleOptions
    let begin (arguments : List Text) (name : Text) : Act Unit :=
      modifyProcess fun p => { p with name, arguments, line := 1 }
    if given then
      match rest with
      | [] =>
        if dialect = .extended then failWith "-c: option requires an argument"
        else failWith "-c requires an argument"
      | script :: operands =>
        begin (operands.drop 1) (operands.headD name)
        runScript g false script
    else
      let fromInput : Act Unit := do
        let t ← readable 0
        let cut ← cutOf 0
        consume 0 true 0
        if cut.isSome then
          runScript g true (t.reverse.dropWhile (· != '\n')).reverse
          starve cut
        else runScript g true t
      match rest, (← process).options.has 's' with
      | file :: arguments, false =>
        match ← contentAt file with
        | .error .isDirectory => return
        | .error fault =>
          if dialect = .extended then
            err (name ++ ": ".toList ++ file ++ ": ".toList ++ fault.text ++ ['\n'])
            throw (.exit 127)
          else
            warn ("cannot open " ++ file ++ ": " ++ faultWith "No such file" fault)
            throw (.exit 2)
        | .ok content =>
          begin arguments file
          runScript g true content
      | arguments, _ =>
        begin arguments name
        fromInput

end Act

def engine : Nat → Engine
  | 0 => ⟨fun _ => throw .exhausted, fun _ => throw .exhausted, fun _ _ => throw .exhausted⟩
  | n + 1 => {
      command := fun c => Act.evaluate (engine n) [] c
      script := fun t => Act.runScript (engine n) false t
      shell := fun dialect words => Act.runShell (engine n) dialect words }

end Shell
end TypedCommand
