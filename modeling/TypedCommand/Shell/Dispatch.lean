import TypedCommand.Shell.Start

/-!
The words of a command carried out: by a function, by the shell itself, or by a program.
-/

namespace TypedCommand

namespace Shell

namespace Act

/-- The words with a meaning where a command begins, and the commands that are part of the
shell. -/
def isKeyword (name : Text) : Act Bool := do return (Read.keywords (← process).dialect).contains name

def isBuiltin (name : Text) : Bool :=
  specialCommands.contains name || (Builtin.table.map Prod.fst).contains name ||
    (["command", "hash", "type", "wait"].map String.toList).contains name

/-- What a name means, in words; or only the name, or the path, that is called. -/
def describe (isBrief isTracked : Bool) (path : Option Text) (name : Text) : Act (Text × Nat) := do
  let p ← process
  let say (t : Text) : Act (Text × Nat) := return (t ++ ['\n'], 0)
  if ← isKeyword name then say (if isBrief then name else name ++ " is a shell keyword")
  else if let some t := p.aliases.get? name then
    say (if isBrief then "alias " ++ name ++ '=' :: quoted t else name ++ " is an alias for " ++ t)
  else if (p.functions.get? name).isSome then
    say (if isBrief then name else name ++ " is a shell function")
  else if isBuiltin name then
    say (if isBrief then name
      else if specialCommands.contains name then name ++ " is a special shell builtin"
      else name ++ " is a shell builtin")
  else match ← search path name with
    | .found shown _ _ =>
      let wasCalled := p.called.contains name
      unless name.contains '/' do
        modifyProcess fun p => { p with called := name :: p.called.filter (· != name) }
      say (if isBrief then shown
        else if wasCalled && isTracked then name ++ " is a tracked alias for " ++ shown
        else name ++ " is " ++ shown)
    | _ => return (if isBrief then [] else name ++ ": not found\n", 127)

def describeAll (command : Text) (isBrief : Bool) (path : Option Text) (names : List Text) :
    Act Nat := do
  let mut shown : Text := []
  let mut status := 0
  for name in names do
    let (t, n) ← describe isBrief true path name
    shown := shown ++ t
    if n ≠ 0 then status := n
  let written ← print command shown
  return if written = 0 then status else 1

def readInto (g : Engine) (name : Text) (arguments : List Text) : Act Nat := do
  let p ← process
  let tree ← files
  let isText (path : Text) : Bool := match tree.find? p.directory path with
    | some (_, .file _ _) => true
    | some (_, .device _) => true
    | _ => false
  let path ← if name.contains '/' then pure (some name)
    else do
      let directories := ((← valueOf? "PATH").getD []).splitOn ':'
      let candidates := directories.map fun d => if d.isEmpty then name else d ++ '/' :: name
      pure (if p.dialect = .extended then (candidates ++ [name]).find? isText
        else candidates.find? isText)
  match path with
  | none =>
    if p.dialect = .extended then
      warn (name ++ ": No such file or directory")
      return 1
    else failWith (name ++ ": not found")
  | some path => match ← contentAt path with
    | .error fault =>
      if p.dialect = .extended then
        warn (name ++ ": " ++ fault.text)
        return 1
      else if fault = .isDirectory then return 0
      else failWith ("cannot open " ++ path ++ ": " ++ faultWith "No such file" fault)
    | .ok content =>
      unless arguments.isEmpty || p.dialect = .common do
        modifyProcess fun q => { q with arguments }
      modifyProcess fun q => { q with status := 0, command := path }
      match ← jumpOf (g.script content) with
      | none => pure ()
      | some (.leave n) => setStatus n
      | some j => throw j
      modifyProcess fun q => { q with
        line := p.line
        arguments := if arguments.isEmpty || p.dialect = .common then q.arguments else p.arguments }
      status

def wait (g : Engine) (args : List Text) : Act Nat := do
  let (_, operands) ← letters [] args
  let settle (isIt : Job → Bool) : Act Unit := do
    let settled (j : Job) : Job :=
      if isIt j then { j with isWaited := true, isReported := true } else j
    modifyProcess fun p => { p with jobs := p.jobs.map settled }
  let statusOf (w : Text) : Act Nat := do
    let number ← if w.head? = some '%' then (·.number) <$> Builtin.jobNamed (some w)
      else Act.numberOf w
    runJobs g number
    match (← process).jobs.find? (·.number == number) with
    | none => return 127
    | some job =>
      if let some signal := job.signal? then
        let said := Signal.report signal
        unless job.isReported || said.isEmpty do err (said ++ ['\n'])
      settle (·.number == number)
      return job.status
  let mut status := 0
  if operands.isEmpty then
    runJobs g
    settle fun _ => true
  for w in operands do status := ← statusOf w
  let p ← process
  match (← world).signals.find? (·.1 == p.number), p.lineage.any (·.1 == p.number) with
  | some (_, name), false => return 128 + (Signal.number? name).getD 0
  | _, _ => return status

def statusArgument (args : List Text) : Act Nat := do
  match args with
  | [] => do return (← process).ending.getD (← status)
  | w :: _ => numberOf w

def recursionLimit : Nat := 1000

def callFunction (g : Engine) (body : Command) (arguments : List Text) : Act Unit := do
  let p ← process
  if p.dialect = .common && recursionLimit ≤ p.recursion then
    failWith ("Maximum function recursion depth (" ++ Text.ofNat recursionLimit ++ ") reached")
  modifyProcess fun q => { q with
    arguments
    successor := none
    loops := 0
    recursion := p.recursion + 1
    hidden := [] :: q.hidden }
  let restore : Act Unit := modifyProcess fun q =>
    let after := q.bindings.restore (q.hidden.headD [])
    { q with
      arguments := p.arguments
      loops := p.loops
      recursion := p.recursion
      hidden := q.hidden.drop 1
      bindings := after
      isTested := p.isTested }
  match ← jumpOf (g.command body) with
  | none => restore
  | some (.leave n) =>
    restore
    setStatus n
  | some j =>
    restore
    throw j

def runNamed (g : Engine) (path : Option Text) : List Text → Act Nat
  | [] => return 0
  | name :: args => do
    let shellCommand (act : Act Nat) : Act Nat := do
      let before := (← process).command
      modifyProcess fun p => { p with command := name }
      let restore := modifyProcess fun p => { p with command := before }
      try
        let n ← act
        restore
        return n
      catch j =>
        restore
        throw j
    match Builtin.table.lookup name with
    | some run => shellCommand (run args)
    | none => match String.ofList name with
      | "eval" => shellCommand do
        let script := [' '].intercalate args
        let line := (← process).line
        if script.all Text.isBlank then return 0
        else
          g.script script
          atLine line
          status
      | "." => shellCommand do
        match args with
        | [] => return 0
        | name :: rest => readInto g name rest
      | "exit" => shellCommand do throw (.exit (← statusArgument args))
      | "return" => shellCommand do
        throw (.leave (← match args with
          | [] => status
          | w :: _ => numberOf w))
      | "break" => shellCommand do
        let n ← match args with
          | [] => pure 1
          | w :: _ => numberOf w
        if n = 0 then failWith "Illegal number: 0"
        let depth := (← process).loops
        if depth = 0 then return 0 else throw (.stopLoop (min n depth))
      | "continue" => shellCommand do
        let n ← match args with
          | [] => pure 1
          | w :: _ => numberOf w
        if n = 0 then failWith "Illegal number: 0"
        let depth := (← process).loops
        if depth = 0 then return 0 else throw (.nextTurn (min n depth))
      | "hash" => shellCommand (Builtin.hash isBuiltin args)
      | "wait" => shellCommand (wait g args)
      | "type" => shellCommand (describeAll name false path args)
      | _ => startProgram g path (name) args

def usualPath : Text := "/usr/sbin:/usr/bin:/sbin:/bin"

/-- Runs the words of a command: a function, unless that is not wanted, a command of the
shell, or a program. A command of the language that fails ends the shell. -/
def dispatch (g : Engine) (skipsFunctions isUsual : Bool) : Nat → List Text → Act Unit
  | 0, _ => throw .exhausted
  | _, [] => setStatus 0
  | n + 1, name :: args => do
    let p ← process
    let path ← if isUsual then pure (some usualPath) else valueOf? "PATH"
    let isSpecial := specialCommands.contains name && p.dialect = .common
    match if isSpecial || skipsFunctions then none else p.functions.get? name with
    | some body => callFunction g body args
    | none =>
      if name = "command".toList then
        let (options, operands) ← try
            modifyProcess fun p => { p with command := name }
            let found ← letters "pvV" args
            modifyProcess fun q => { q with command := p.command }
            pure found
          catch j =>
            modifyProcess fun q => { q with command := p.command }
            match j with
            | .fail n =>
              setStatus n
              return
            | j => throw j
        let usesUsual := options.any (·.1 == 'p')
        let path := if usesUsual then some usualPath else path
        if options.any (·.1 == 'v') then
          setStatus (← describeAll name true path (operands.take 1))
        else if options.any (·.1 == 'V') then
          setStatus (← describeAll name false path (operands.take 1))
        else
          match ← jumpOf (dispatch g true usesUsual n operands) with
          | some (.fail n) => setStatus n
          | some j => throw j
          | none => return
      else if name = "exec".toList then
        match args with
        | [] => setStatus 0
        | target :: rest =>
          modifyProcess fun p => { p with command := name, traps := SortedMap.empty }
          let status ← startProgram g path target rest
          throw (.exit status)
      else if isSpecial && !skipsFunctions then setStatus (← runNamed g path (name :: args))
      else
        let status ← try runNamed g path (name :: args)
          catch
            | .fail n => pure n
            | j => throw j
        setStatus status

end Act

end Shell
end TypedCommand
