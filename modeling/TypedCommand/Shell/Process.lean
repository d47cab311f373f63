import TypedCommand.FileTree
import TypedCommand.Shell.Command

/-!
The state of a running shell. What all processes share is the world: the files, and the
channels that descriptors lead to. Everything else belongs to a process, and a process that
starts another one gives it a copy.
-/

namespace TypedCommand

namespace Shell

/-- A place that collects what is written, perhaps with so much room left. It is cut when
something was to be written for which there was no room. -/
structure Sink where
  written : List Text := []
  room : Option Nat := none
  isCut : Bool := false

/-- What a descriptor leads to: nothing, a device without room, a directory, a text that is read from its front, a
place that collects what is written, or a file at a position, as it was opened. A text that
goes on behind its end, because a sink was cut, names the channel of that sink. -/
inductive Channel
  | nowhere
  | full
  | directory
  | source (text : Text) (cut : Option Nat)
  | sink (s : Sink)
  | file (place : Text) (position : Nat) (opening : Opening)

/-- What has been written at the end of a file and is not in the file yet, the last of it
first, and the length of the file with it. -/
structure Tail where
  place : Text
  written : List Text
  total : Nat

structure World where
  files : FileTree := {}
  tail : Option Tail := none
  channels : Array Channel := #[]
  /-- The number of the next process. -/
  nextProcess : Nat := 1
  /-- Signals that are to be answered, each with the number of its process. -/
  signals : List (Nat × Text) := []
  /-- The thousandths of a second that have passed, and how many can pass before what is
  being run is ended. Only waiting takes time. -/
  clock : Nat := 0
  deadline : Option Nat := none

structure Variable where
  value : Option Text := none
  isExported : Bool := false
  isReadonly : Bool := false

structure Options where
  letters : Text := []
  failsInPipes : Bool := false

namespace Options

def has (o : Options) (letter : Char) : Bool := o.letters.contains letter

def stopsOnFailure (o : Options) : Bool := o.has 'e'

def refusesUnset (o : Options) : Bool := o.has 'u'

def traces (o : Options) : Bool := o.has 'x'

def keepsPatterns (o : Options) : Bool := o.has 'f'

def onlyReads (o : Options) : Bool := o.has 'n'

def echoesInput (o : Options) : Bool := o.has 'v'

def exportsAll (o : Options) : Bool := o.has 'a'

def keepsFiles (o : Options) : Bool := o.has 'C'

def put (o : Options) (isSet : Bool) (letter : Char) : Options :=
  let others := o.letters.filter (· != letter)
  { o with letters := if isSet then letter :: others else others }

def names : List (Text × Char) :=
  [("errexit", 'e'), ("noglob", 'f'), ("ignoreeof", 'I'), ("interactive", 'i'), ("monitor", 'm'),
    ("noexec", 'n'), ("stdin", 's'), ("xtrace", 'x'), ("verbose", 'v'), ("vi", 'V'),
    ("emacs", 'E'), ("noclobber", 'C'), ("allexport", 'a'), ("notify", 'b'), ("nounset", 'u'),
    ("privileged", 'p'), ("nolog", '.'), ("debug", ',')].map fun (name, letter) =>
      (String.toList name, letter)

def shown (o : Options) : Text :=
  (names.reverse.map Prod.snd).filter fun c => o.has c && c.isAlpha

end Options

/-- A command in the background as the shell that started it keeps it: its place in the
list, the number of its process, and how it ended. One that a signal ended has its number
behind all statuses. -/
structure Job where
  place : Nat
  number : Nat
  /-- How many commands there are in its pipe behind the first one. -/
  followers : Nat := 0
  ended : Option Nat := none
  /-- Whether the shell has waited for it, and has said what ended it. -/
  isWaited : Bool := false
  isReported : Bool := false

namespace Job

def status (j : Job) : Nat :=
  match j.ended with
  | some n => if n < 256 then n else n - 128
  | none => 0

def signal? (j : Job) : Option Nat := j.ended.bind fun n => if n < 256 then none else some (n - 256)

/-- The place of a new job: the first that is free, or is kept by a job that is over. -/
def freePlace (jobs : List Job) : Nat :=
  let kept := (jobs.filter fun j => !(j.ended.isSome && j.isWaited)).map Job.place
  ((List.range (jobs.length + 1)).find? fun n => !kept.contains (n + 1)).getD jobs.length + 1

end Job

structure Process where
  /-- The name that the shell gives itself in messages. -/
  name : Text
  dialect : Dialect := .common
  /-- The command of the shell that is being run, for messages. -/
  command : Text := []
  arguments : List Text := []
  bindings : SortedMap Variable := SortedMap.empty
  /-- The variables that the functions being run have hidden, innermost first. -/
  hidden : List (List (Text × Option Variable)) := []
  functions : SortedMap Command := SortedMap.empty
  aliases : SortedMap Text := SortedMap.empty
  directory : Text := ['/']
  /-- The working directory as the shell came to it, perhaps through links. -/
  route : Text := ['/']
  /-- The channels of the descriptors. -/
  descriptors : List (Nat × Nat) := []
  status : Nat := 0
  line : Nat := 1
  /-- The number of the shell, which those that it splits off keep. -/
  number : Nat := 1
  /-- The processes that this one is part of, by their numbers, and how they answer signals. -/
  lineage : List (Nat × SortedMap Text) := []
  background : Option Nat := none
  /-- The commands in the background, the last one first. -/
  jobs : List Job := []
  /-- The process that the command at hand takes over, because nothing comes after it. -/
  successor : Option Nat := none
  /-- The status that the shell has come to its end with. -/
  ending : Option Nat := none
  options : Options := {}
  traps : SortedMap Text := SortedMap.empty
  /-- The permissions that new files do not get. -/
  mask : Nat := 18
  loops : Nat := 0
  /-- How many functions are being run, one inside the other. -/
  recursion : Nat := 0
  /-- Whether the shell is to answer that something it wrote had no reader. -/
  isBroken : Bool := false
  /-- Whether a failure is looked at, and so does not end the shell. -/
  isTested : Bool := false
  /-- How the last command inside a word ended, if there was one. -/
  inner : Option Nat := none
  /-- The programs that have been called, by name. -/
  called : List Text := []
  /-- How much of the word at hand the reader of options has taken. -/
  optionOffset : Nat := 0

/-- A command in the background that has not been run yet, with the number of its process and
the time of its start. -/
structure Pending where
  number : Nat
  start : Nat
  process : Process
  body : Command

structure State where
  world : World
  process : Process
  waiting : List Pending := []

inductive Jump
  | exit (status : Nat)
  | fail (status : Nat)
  | leave (status : Nat)
  | stopLoop (depth : Nat)
  | nextTurn (depth : Nat)
  | killed (process signal : Nat)
  /-- Something was written for which there is no reader any more. -/
  | broken
  /-- More is wanted of a text than was written to the sink of a channel before it was cut. -/
  | starved (sink : Nat)
  | exhausted

abbrev Act := ExceptT Jump (StateM State)

namespace Act

def process : Act Process := do return (← get).process

def world : Act World := do return (← get).world

def modifyProcess (f : Process → Process) : Act Unit :=
  modify fun s => { s with process := f s.process }

def modifyWorld (f : World → World) : Act Unit := modify fun s => { s with world := f s.world }

def fileText (t : FileTree) (place : Text) : Text :=
  match t.at? place with
  | some (.file content _) => content
  | _ => []

def filesOf (w : World) : FileTree :=
  match w.tail with
  | none => w.files
  | some tail =>
    w.files.fill tail.place (fileText w.files tail.place ++ tail.written.reverse.flatten)

def setFiles (t : FileTree) : Act Unit := modifyWorld fun w => { w with files := t, tail := none }

def files : Act FileTree := do
  let w ← world
  match w.tail with
  | none => return w.files
  | some _ =>
    let t := filesOf w
    setFiles t
    return t

def setStatus (n : Nat) : Act Unit := modifyProcess fun p => { p with status := n }

def status : Act Nat := do return (← process).status

def newChannel (c : Channel) : Act Nat := do
  let w ← world
  modifyWorld fun w => { w with channels := w.channels.push c }
  return w.channels.size

def setChannel (n : Nat) (c : Channel) : Act Unit :=
  modifyWorld fun w => { w with channels := w.channels.setIfInBounds n c }

def channelOf? (descriptor : Nat) : Act (Option (Nat × Channel)) := do
  let s ← get
  return do
    let n ← s.process.descriptors.lookup descriptor
    return (n, ← s.world.channels[n]?)

def setDescriptor (descriptor : Nat) (channel : Option Nat) : Act Unit :=
  modifyProcess fun p =>
    let others := p.descriptors.filter fun e => e.1 != descriptor
    { p with descriptors := match channel with
      | some n => (descriptor, n) :: others
      | none => others }

def textOf : Channel → Text
  | .sink s => s.written.reverse.flatten
  | .source t _ => t
  | _ => []

def overwrite (content : Text) (position : Nat) (t : Text) : Text :=
  content.take position ++ List.replicate (position - content.length) (Char.ofNat 0) ++ t ++
    content.drop (position + t.length)

/-- Writes to a file, and gives the position behind what was written. Nothing is kept for a
file that has been removed. -/
def writeAt (place : Text) (position : Nat) (appends : Bool) (t : Text) : Act Nat := do
  let extend (written : List Text) (total : Nat) : Act Nat := do
    let total := total + t.length
    modifyWorld fun w => { w with tail := some ⟨place, t :: written, total⟩ }
    return total
  let tail := (← world).tail.filter (·.place == place)
  match tail.filter fun tail => appends || position == tail.total with
  | some tail => extend tail.written tail.total
  | none =>
    let tree ← files
    let content := fileText tree place
    let length := content.length
    if !(tree.at? place matches some (.file _ _)) then return position + t.length
    else if appends || position = length then extend [] length
    else
      setFiles (tree.fill place (overwrite content position t))
      return position + t.length

/-- The signal for a text without a reader ends the process, unless it is ignored. A shell can
answer it; a program that it has started cannot. -/
def breakOff (isProgram : Bool) : Act WriteFault := do
  match (← process).traps.get? "PIPE" with
  | none => throw .broken
  | some action =>
    if action.isEmpty then return .broken
    else if isProgram then throw .broken
    else
      modifyProcess fun p => { p with isBroken := true }
      return .broken

def write (descriptor : Nat) (t : Text) (isProgram : Bool := false) : Act (Option WriteFault) := do
  match ← channelOf? descriptor with
  | none => return if t.isEmpty then none else some .closed
  | some (n, .sink s) =>
    if t.isEmpty then return none
    match s.room with
    | none =>
      setChannel n (.sink { s with written := t :: s.written })
      return none
    | some room =>
      let length := t.length
      if length ≤ room then
        setChannel n (.sink { s with written := t :: s.written, room := some (room - length) })
        return none
      else
        setChannel n (.sink ⟨t.take room :: s.written, some 0, true⟩)
        return some (← breakOff isProgram)
  | some (n, .file place position opening) =>
    if t.isEmpty then return none
    if opening == .input then return some .closed
    setChannel n (.file place (← writeAt place position (opening == .append) t) opening)
    return none
  | some (_, .nowhere) => return none
  | some (_, .full) => return if t.isEmpty then none else some .full
  | some _ => return if t.isEmpty then none else some .closed

def out (t : Text) : Act Unit := do let _ ← write 1 t

def err (t : Text) : Act Unit := do let _ ← write 2 t

def readable (descriptor : Nat) : Act Text := do
  match ← channelOf? descriptor with
  | some (_, .source t _) => return t
  | some (_, .file place position opening) =>
    if opening.reads then return (fileText (← files) place).drop position else return []
  | _ => return []

def descriptorAt? (path : Text) : Option Nat :=
  let behind (front : Text) : Option Nat :=
    let digits := path.drop front.length
    if front.isPrefixOf path && Text.isDigits digits then some (Text.digitsValue digits) else none
  match String.ofList path with
  | "/dev/stdin" => some 0
  | "/dev/stdout" => some 1
  | "/dev/stderr" => some 2
  | _ => (behind "/dev/fd/").or (behind FileTree.descriptorsPlace)

def faultOf (descriptor : Nat) : Act (Option FileFault) := do
  match ← channelOf? descriptor with
  | none | some (_, .sink _) => return some .badDescriptor
  | some (_, .directory) => return some .isDirectory
  | some (_, .file _ _ opening) => return if opening.reads then none else some .badDescriptor
  | some _ => return none

def cutOf (descriptor : Nat) : Act (Option Nat) := do
  match ← channelOf? descriptor with
  | some (_, .source _ cut) => return cut
  | _ => return none

def roomOf (descriptor : Nat) : Act (Option Nat) := do
  match ← channelOf? descriptor with
  | some (_, .sink s) => return s.room
  | _ => return none

def starve (cut : Option Nat) : Act Unit := do
  match cut with
  | some sink => throw (.starved sink)
  | none => return

def blockLength : Nat := 8192

/-- Leaves the given number of characters to be read; a program that reads ahead leaves
them only in a file, or as far as it has not come to their block. -/
def consume (descriptor : Nat) (isAhead : Bool) (left : Nat) : Act Unit := do
  match ← channelOf? descriptor with
  | some (n, .source t cut) =>
    let used := t.length - left
    let ahead := (used + blockLength - 1) / blockLength * blockLength
    setChannel n (.source (t.drop (if isAhead then ahead else used)) cut)
  | some (n, .file place _ opening) =>
    if opening.reads then
      let length := (fileText (← files) place).length
      setChannel n (.file place (length - left) opening)
  | _ => return

def advance (descriptor : Nat) (used : Nat) : Act Unit := do
  match ← channelOf? descriptor with
  | some (n, .source t cut) => setChannel n (.source (t.drop used) cut)
  | some (n, .file place position opening) => setChannel n (.file place (position + used) opening)
  | _ => return

/-- The text of a file, or what can be read from the descriptor that a path stands for. -/
def contentAt (path : Text) : Act (Except FileFault Text) := do
  match descriptorAt? path with
  | none => return (← files).read (← process).directory path
  | some n =>
    match ← channelOf? n, ← faultOf n with
    | none, _ => return .error .missing
    | _, some fault => return .error fault
    | _, none =>
      let text ← readable n
      starve (← cutOf n)
      consume n true 0
      return .ok text

/-- A message of the shell: its name, the line, the command, and what is said. -/
def warn (t : Text) : Act Unit := do
  let p ← process
  let place := match p.dialect with
    | .common => Text.ofNat p.line
    | .extended => "line ".toList ++ Text.ofNat p.line
  let command : Text := if p.command.isEmpty then [] else p.command ++ ": "
  err (p.name ++ ": " ++ place ++ ": " ++ command ++ t ++ ['\n'])

def failWith {α : Type} (t : Text) : Act α := do
  warn t
  throw (.fail 2)

def valueOf? (name : Text) : Act (Option Text) := do
  return ((← process).bindings.get? name).bind (·.value)

/-- Gives a variable a value; one that is not to be changed ends the shell. -/
def assign (name value : Text) : Act Unit := do
  let p ← process
  let before := (p.bindings.get? name).getD {}
  if before.isReadonly then
    match p.dialect with
    | .common => failWith (name ++ ": is read only")
    | .extended => failWith (name ++ ": readonly variable")
  else
    let after := { before with
      value := some value, isExported := before.isExported || p.options.exportsAll }
    modifyProcess fun p => { p with bindings := p.bindings.insert name after }
    if name = "OPTIND".toList then modifyProcess fun p => { p with optionOffset := 0 }
    if name = "PATH".toList then modifyProcess fun p => { p with called := [] }

def exported : Act (SortedMap Text) := do
  return SortedMap.ofList ((← process).bindings.entries.filterMap fun (name, v) =>
    if v.isExported then v.value.map (name, ·) else none)

def tested {α : Type} (act : Act α) : Act α := do
  let before := (← process).isTested
  modifyProcess fun p => { p with isTested := true }
  let a ← act
  modifyProcess fun p => { p with isTested := before }
  return a

def ensuring (act : Act Unit) (after : Act Unit) : Act Unit := do
  try act
  catch j =>
    after
    throw j
  after

end Act

end Shell
end TypedCommand
