import TypedCommand.Shell.Expansion
import TypedCommand.Shell.Reader
import TypedCommand.Shell.Signal

/-!
Shells inside shells. What a command can ask for without a bound, such as a function, a
text to be read or another shell, comes from an engine. Commands run in the shell itself, in
a copy of it, or in a process of their own; each of these ends in its own way, and answers
its end.
-/

namespace TypedCommand

namespace Shell

/-- What the evaluation of a command rests on: the evaluation of other commands and of
texts, and shells as programs. -/
structure Engine where
  command : Command → Act Unit
  script : Text → Act Unit
  shell : Dialect → List Text → Act Unit

def Problem.text : Problem → Text
  | unexpected t expected =>
    t.name ++ " unexpected" ++ match expected with
      | some e => " (expecting " ++ e ++ [')']
      | none => []
  | quoteNotClosed '`' => "EOF in backquote substitution"
  | quoteNotClosed _ => "Unterminated quoted string"
  | parameterNotClosed => "Missing '\x7d'"
  | numberNotClosed => "Missing '))'"
  | backquoteNotClosed => "EOF in backquote substitution"
  | badLoopVariable => "Bad for loop variable"
  | badFunctionName => "Bad function name"
  | badDescriptor => "Bad fd number"
  | tooDeep => "Too deep"

def Problem.extendedText : Problem → Text
  | unexpected .endOfText _ => "syntax error: unexpected end of file"
  | unexpected t _ =>
    let shown := if t.text.isEmpty then t.name else t.text
    "syntax error near unexpected token " ++ ['`'] ++ shown ++ ['\'']
  | quoteNotClosed mark =>
    "unexpected EOF while looking for matching " ++ ['`', mark, '\'']
  | parameterNotClosed => "unexpected EOF while looking for matching " ++ ['`', '\x7d', '\'']
  | numberNotClosed => "unexpected EOF while looking for matching " ++ ['`', ')', '\'']
  | backquoteNotClosed => "unexpected EOF while looking for matching " ++ ['`', '`', '\'']
  | problem => "syntax error: " ++ problem.text

namespace Act

def failRead {α : Type} (e : ScriptError) : Act α := do
  modifyProcess fun p => { p with line := e.line }
  match (← process).dialect with
  | .common => failWith ("Syntax error: " ++ e.problem.text)
  | .extended => failWith e.problem.extendedText

def answerEnd (g : Engine) : Act Unit := do
  let p ← process
  if let some action := p.traps.get? "EXIT" then
    modifyProcess fun p => { p with
      traps := p.traps.erase "EXIT"
      command := []
      isTested := false
      ending := some p.status }
    g.script action
    setStatus p.status

def brokenStatus : Nat := 141

def settle (j : Option Jump) : Act Unit := do
  match j with
  | none | some (.stopLoop _) | some (.nextTurn _) => return
  | some (.exit n) | some (.fail n) | some (.leave n) => setStatus n
  | some (.killed number signal) => throw (.killed number signal)
  | some .broken => throw .broken
  | some (.starved sink) => throw (.starved sink)
  | some .exhausted => throw .exhausted

def jumpOf (act : Act Unit) : Act (Option Jump) := do
  try
    act
    return none
  catch j => return some j

/-- Runs something as a shell of its own, up to its end and what that is answered with. -/
def toEnd (g : Engine) (act : Act Unit) : Act Unit := do
  settle (← jumpOf act)
  settle (← jumpOf (answerEnd g))

/-- What a command in the background comes to: the state that it leaves, and when it ends. -/
structure Outcome where
  state : State
  time : Nat

def outcomeOf (g : Engine) (limit : Option Nat) (job : Pending) : Act (Option Outcome) := do
  let before ← get
  let world := before.world
  set { before with
    process := job.process
    waiting := []
    world := { world with
      clock := job.start
      deadline := match limit, world.deadline with
        | some a, some b => some (min a b)
        | a, b => a.or b } }
  let j ← jumpOf (toEnd g (g.command job.body))
  let after ← get
  set before
  let ended ← match j with
    | none => pure (some (after.process.status % 256))
    | some (.killed n signal) =>
      if n = job.number then pure (some (256 + signal)) else throw (.killed n signal)
    | some .broken => pure (some (256 + (brokenStatus - 128)))
    | some .exhausted => pure none
    | some j => throw j
  return ended.map fun status => {
    time := after.world.clock
    state := { after with
      world := { after.world with
        clock := world.clock
        deadline := world.deadline }
      process := { before.process with
        jobs := before.process.jobs.map fun j =>
          if j.number = job.number then { j with ended := some status } else j }
      waiting := before.waiting.filter (·.number != job.number) ++ after.waiting } }

/-- The outcome that comes first. What takes no time is not compared with the others. -/
def firstOutcome (g : Engine) (limit : Option Nat) : List Pending → Act (Option Outcome)
  | [] => return none
  | job :: rest => do
    match ← outcomeOf g limit job with
    | none => firstOutcome g limit rest
    | some o =>
      if o.time = job.start then return some o
      else match ← firstOutcome g limit rest with
        | some other => return some (if other.time < o.time then other else o)
        | none => return some o

/-- Runs commands in the background in the order of their ends, at most so many, up to a time,
or else up to the end of one of them or of all of them, for which time passes. -/
def runJobsFrom (g : Engine) (limit wanted : Option Nat) : Nat → Act Unit
  | 0 => return
  | n + 1 => do
    let waiting := (← get).waiting
    unless waiting.isEmpty || wanted.any fun k => waiting.all (·.number != k) do
      match ← firstOutcome g limit waiting with
      | none => if limit.isNone then modify fun s => { s with waiting := [] }
      | some o =>
        set o.state
        if limit.isNone then modifyWorld fun w => { w with clock := max w.clock o.time }
        runJobsFrom g limit wanted n

def jobLimit : Nat := 10000

def catchUp (g : Engine) : Act Unit := do
  runJobsFrom g (some (← world).clock) none jobLimit

def runJobs (g : Engine) (wanted : Option Nat := none) : Act Unit :=
  runJobsFrom g none wanted jobLimit

/-- Takes the place of a new process in the list of jobs; a job that is over and has been
waited for can lose its place so. -/
def takePlace : Act Unit :=
  modifyProcess fun p => { p with
    jobs := p.jobs.filter (·.place != Job.freePlace p.jobs) }

def asShell (g : Engine) (act : Act Unit) : Act Unit := do
  toEnd g act
  runJobs g

def inCopy (g : Engine) (act : Act Unit) : Act Nat := do
  let p ← process
  let waiting := (← get).waiting
  modify fun s => { s with waiting := [] }
  modifyProcess fun p => { p with
    traps := SortedMap.ofList (p.traps.entries.filter fun e => e.2.isEmpty)
    ending := none
    jobs := []
    successor := none
    lineage := (p.number, p.traps) :: p.lineage }
  let j ← jumpOf (asShell g act)
  let status ← status
  modifyProcess fun _ => p
  modify fun s => { s with waiting }
  match j with
  | some .broken => return brokenStatus
  | j =>
    settle j
    return status % 256

/-- What something prints in a copy of the shell; its status is kept for the command that
uses this. -/
def printed (g : Engine) (act : Act Unit) : Act Text := do
  takePlace
  let n ← newChannel (.sink {})
  let status ← inCopy g do
    setDescriptor 1 (some n)
    act
  modifyProcess fun p => { p with inner := some status }
  match (← world).channels[n]? with
  | some c => return textOf c
  | none => return []

def outputOf (g : Engine) (script : Text) : Act Text := printed g (g.script script)

def atLine (n : Nat) : Act Unit := modifyProcess fun p => { p with line := n }

/-- Runs something as a process of its own, with a number of its own, and gives its status.
What is said of a process that a signal has ended goes where the errors of this one go. -/
def asProcess (g : Engine) (act : Act Unit) (reports : Bool := true) : Act Nat := do
  let p ← process
  let number := (← world).nextProcess
  modifyWorld fun w => { w with nextProcess := number + 1 }
  let waiting := (← get).waiting
  modify fun s => { s with waiting := [] }
  modifyProcess fun p => { p with
    number
    lineage := (p.number, p.traps) :: p.lineage
    traps := SortedMap.ofList (p.traps.entries.filter fun e => e.2.isEmpty)
    ending := none
    command := []
    isTested := false
    loops := 0
    hidden := []
    functions := SortedMap.empty
    aliases := SortedMap.empty
    jobs := []
    successor := none
    background := none }
  let j ← jumpOf (asShell g act)
  let status ← status
  modifyProcess fun _ => p
  modify fun s => { s with waiting }
  match j with
  | some (.killed n signal) =>
    if n = number then
      if let some successor := p.successor then throw (.killed successor signal)
      let said := Signal.report signal
      unless said.isEmpty || !reports do err (said ++ ['\n'])
      return 128 + signal
    else throw (.killed n signal)
  | some .broken => return brokenStatus
  | j =>
    settle j
    return status % 256

def checkFailure : Act Unit := do
  let p ← process
  if p.status != 0 && p.options.stopsOnFailure && !p.isTested then throw (.exit p.status)

def answerSignals (g : Engine) : Act Unit := do
  let p ← process
  if p.isBroken then
    modifyProcess fun p => { p with isBroken := false }
    if let some action := p.traps.get? "PIPE" then g.script action
    setStatus p.status
  let signals := (← world).signals
  unless signals.isEmpty || p.lineage.any (·.1 == p.number) do
    modifyWorld fun w => { w with signals := signals.filter fun e => e.1 != p.number }
    for (number, name) in signals do
      if number = p.number then
        if let some action := p.traps.get? name then g.script action
    setStatus p.status

def faultWith (absent : Text) (fault : FileFault) : Text :=
  if fault = .missing ∨ fault = .notDirectory then absent else fault.text

def startingFault (dialect : Dialect) (name : Text) (fault : FileFault) : Text × Nat :=
  let hasPath := name.contains '/'
  match dialect with
  | .common =>
    let isAbsent := fault = .missing ∨ fault = .notDirectory ∨ fault = .tooManyLinks
    (name ++ ": " ++ faultWith "not found" fault, if isAbsent ∨ !hasPath then 127 else 126)
  | .extended =>
    if hasPath then
      let said : Text := if fault = .noProgram then "cannot execute binary file: " else []
      (name ++ ": " ++ said ++ fault.text, if fault = .missing then 127 else 126)
    else (name ++ ": command not found", 127)

end Act

end Shell
end TypedCommand
