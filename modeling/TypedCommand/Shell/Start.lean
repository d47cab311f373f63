import TypedCommand.Shell.Builtin
import TypedCommand.Shell.Engine
import TypedCommand.Tool.Refusal
import TypedCommand.Tool.Table

/-!
Programs started: found among the files, given the variables that are passed on, and run on
what can be read. A script is started by the interpreter that its first line names.
-/

namespace TypedCommand

namespace Shell

namespace Act

def dialectOf? (program : Text) : Option Dialect :=
  match String.ofList program with
  | "sh" | "dash" => some .common
  | "bash" | "rbash" => some .extended
  | _ => none

def onlyExported (bindings : SortedMap Text) : Act Unit :=
  modifyProcess fun p => { p with
    bindings := SortedMap.ofList (bindings.entries.map fun (name, value) =>
      (name, { value := some value, isExported := true })) }

def headLength : Nat := 255

def interpreterOf? (content : Text) : Option (List Text) :=
  match content with
  | '#' :: '!' :: rest =>
    let isSpace (c : Char) : Bool := c == ' ' || c == '\t'
    let trim (t : Text) : Text := Text.trimEnd isSpace (Text.trimStart isSpace t)
    let line := trim ((rest.take (headLength - 2)).takeWhile (· != '\n'))
    let program := line.takeWhile fun c => !isSpace c
    let argument := trim (line.drop program.length)
    if program.isEmpty then none
    else some (if argument.isEmpty then [program] else [program, argument])
  | _ => none

/-- What a program is called with in the end, or why it cannot be started. -/
inductive Start
  | tool (name : Text) (words : List Text)
  | shell (dialect : Dialect) (words : List Text)
  | failed (fault : FileFault)

def scriptLimit : Nat := 5

/-- What an entry at a path is started as, called by a word: a program, or the interpreter of
a script, which is given the path. -/
def startFor (called path : Text) (arguments : List Text) : Nat → Entry → Act Start
  | _, .program name =>
    return match dialectOf? name with
      | some dialect => .shell dialect (called :: arguments)
      | none => .tool name (called :: arguments)
  | n, .file content _ => do
    match interpreterOf? content, n with
    | none, _ => return .failed .noProgram
    | some _, 0 => return .failed .tooManyLinks
    | some words, n + 1 =>
      let interpreter := words.headD []
      match (← files).find (← process).directory interpreter with
      | .error fault => return .failed fault
      | .ok (_, entry) =>
        if entry.isExecutable && !entry.isDirectory then
          startFor interpreter interpreter (words.drop 1 ++ path :: arguments) n entry
        else return .failed .denied
  | _, _ => return .failed .denied

def startOf (called path : Text) (entry : Entry) (arguments : List Text) : Act Start :=
  startFor called path arguments scriptLimit entry

def scriptStart (path : Text) (arguments : List Text) : Start :=
  .shell .common ("sh".toList :: path :: arguments)

/-- Whether a file can be taken for a script without an interpreter: its first line, as far
as it is looked at, is text. -/
def isScript (dialect : Dialect) (entry : Entry) : Bool :=
  match entry, dialect with
  | .file content _, .common =>
    ((content.take 128).takeWhile (· != '\n')).all fun c =>
      let n := c.toNat
      (9 ≤ n && n < 16) || n == 27 || (32 ≤ n && n != 127)
  | .file content _, .extended =>
    !("\x7fELF".toList.isPrefixOf content) &&
      !((content.take 80).takeWhile (· != '\n')).contains (Char.ofNat 0)
  | _, _ => true

def fed (g : Engine) (input : Text) (act : Act Nat) : Act Nat := do
  let n ← newChannel (.source input none)
  inCopy g do
    setDescriptor 0 (some n)
    setStatus (← act)

/-- Lets time pass, or comes to the end of the time that there is. Where there is no such
end, a time without end is over at once. -/
def spend (time : Option Nat) : Act Unit := do
  let w ← world
  match time, w.deadline with
  | none, none => return
  | none, some _ => throw .exhausted
  | some n, deadline =>
    if 0 < n && deadline.any (· ≤ w.clock + n) then throw .exhausted
    modifyWorld fun w => { w with clock := w.clock + n }

def within (time : Nat) (act : Act Nat) : Act (Option Nat) := do
  let before ← world
  let finish := before.clock + time
  let deadline := (before.deadline.map (min finish)).getD finish
  let restore (isOver : Bool) : Act Unit :=
    modifyWorld fun w => { w with
      deadline := before.deadline
      clock := if isOver then deadline else w.clock }
  modifyWorld fun w => { w with deadline := some deadline }
  let status ← try some <$> act
    catch
      | .exhausted => pure none
      | j => do
        restore false
        throw j
  restore status.isNone
  if status.isNone && deadline < finish then throw .exhausted
  return status

/-- Does what a program goes on to do. It fails where its output cannot be written. -/
def proceed (g : Engine) (fail : WriteFault → Act Nat) (start : List Text → Act Nat) : Tool.Procedure → Act Nat
  | .ended status => return status
  | .shows descriptor t next => do
    match ← write descriptor t true with
    | some fault => if descriptor = 1 then fail fault else proceed g fail start (next ())
    | none => proceed g fail start (next ())
  | .waits next => do
    starve (← cutOf 0)
    proceed g fail start next
  | .passes time next => do
    spend time
    proceed g fail start next
  | .limits time words next => do proceed g fail start (next (← within time (start words)))
  | .edits change next => do
    setFiles (change (← files))
    proceed g fail start next
  | .looks next => do proceed g fail start (next (← files))
  | .starts words next => do proceed g fail start (next (← start words))
  | .feeds words input next => do proceed g fail start (next (← fed g input (start words)))
  | .asks words next => do
    let shown ← printed g do setStatus (← start words)
    proceed g fail start (next shown ((← process).inner.getD 0))

def commonFront : Text → Text → Text
  | a :: s, b :: t => if a = b then a :: commonFront s t else []
  | _, _ => []

/-- Shows what a program prints on a part of its input, as far as the rest of the input makes
no difference, and waits for the rest: what it prints on half of the part tells how far that
is. -/
def showFront (run : Tool.Call → Tool.Reply) (call : Tool.Call) (reply : Tool.Reply) : Act Unit := do
  let half := run { call with input := call.input.take (call.input.length / 2) }
  for descriptor in [2, 1] do
    let text (r : Tool.Reply) : Text :=
      r.printed.flatMap fun e => if e.1 = descriptor then e.2 else []
    let _ ← write descriptor (commonFront (text half) (text reply)) true
  starve (← cutOf 0)

def carryOut (g : Engine) (start : (Text → Text) → SortedMap Text → List Text → Act Nat)
    (bindings : SortedMap Text) (run : Tool.Call → Tool.Reply) (call : Tool.Call) : Act Nat := do
  if call.name = "cat".toList && (← channelOf? 1).isNone then
    err (call.message "standard output: Bad file descriptor")
    return 1
  let reply := call.answer run
  if let some tree := reply.files then setFiles tree
  if call.inputIsCut && reply.readsInput && !reply.stopsEarly && reply.sequel.isNone then
    showFront run call reply
  if reply.readsInput then consume 0 true reply.unread
  let mut fault : Option WriteFault := none
  for (descriptor, t) in reply.printed do
    if let some f ← write descriptor t true then
      if descriptor = 1 then fault := some f
  let fail (f : WriteFault) : Act Nat := do
    let (said, status) := call.unwritten f
    err said
    return status
  match fault, reply.sequel with
  | none, none => return reply.status
  | some f, _ => fail f
  | none, some s => proceed g fail (start s.naming (s.bindings.getD bindings)) s.procedure

def openPlaces : Act (List (Nat × Text × Text)) := do
  let descriptors := (← process).descriptors
  descriptors.mapM fun (n, _) => do
    return (n, FileTree.descriptorsPlace ++ Text.ofNat n, ← readable n)

/-- Runs something whose files include the descriptors: what can be read from them, and what
is written to them. -/
def amongDescriptors (act : Act Nat) : Act Nat := do
  let places ← openPlaces
  let isPlace (place : Text) : Bool := FileTree.descriptorsPlace.isPrefixOf place
  let before ← files
  let kept := before.entries.entries.filter fun e => isPlace e.1
  let bare := { before with entries := before.entries.filterKeys fun place => !isPlace place }
  setFiles (places.foldl (fun t (_, place, text) => t.put place (.file text false)) bare)
  let settle : Act Unit := do
    let after ← files
    let bare := { after with entries := after.entries.filterKeys fun place => !isPlace place }
    setFiles (kept.foldl (fun t (place, entry) => t.put place entry) bare)
    for (n, place, text) in places do
      let now := fileText after place
      if now != text then let _ ← write n now true
  try
    let status ← act
    settle
    return status
  catch j =>
    settle
    throw j

/-- Whether a word names the place of a descriptor, as it is, behind the letter of an option,
or behind an equals sign. -/
def namesDescriptor (word : Text) : Bool :=
  let fronts : List Text := ["/dev/std", "/dev/fd/", FileTree.descriptorsPlace]
  [word, word.drop 2, (word.dropWhile (· != '=')).drop 1].any fun t => fronts.any (·.isPrefixOf t)

def runTool (g : Engine) (start : (Text → Text) → SortedMap Text → List Text → Act Nat)
    (bindings : SortedMap Text) (name called : Text) (arguments : List Text) : Act Nat := do
  let p ← process
  let input ← readable 0
  let inputIsFile := match ← channelOf? 0 with
    | some (_, .file _ _ _) => true
    | _ => false
  let call : Tool.Call := {
    name := called
    arguments
    input
    inputIsFile
    inputFault := ← faultOf 0
    inputIsClosed := (← channelOf? 0).isNone
    inputIsCut := (← cutOf 0).isSome
    room := ← roomOf 1
    files := ← files
    directory := p.directory
    bindings }
  match Tool.table.lookup name with
  | none => return 127
  | some run =>
    try carryOut g start bindings run call
    catch
      | .broken => pure brokenStatus
      | j => throw j

def runToolAmong (g : Engine) (start : (Text → Text) → SortedMap Text → List Text → Act Nat)
    (bindings : SortedMap Text) (name called : Text) (arguments : List Text) : Act Nat := do
  let run := runTool g start bindings name called arguments
  if arguments.any namesDescriptor then
    let named := arguments.filterMap descriptorAt?
    for n in named do starve (← cutOf n)
    let status ← amongDescriptors run
    for n in named do consume n true 0
    return status
  else run

def startFrom (g : Engine) (caller : Text) :
    Nat → (Text → Text) → SortedMap Text → List Text → Act Nat
  | 0, _, _, _ => throw .exhausted
  | _, _, _, [] => return 0
  | n + 1, naming, bindings, name :: arguments => do
    let failed (said : Text) (status : Nat) : Act Nat := do
      err (caller ++ ": ".toList ++ naming name ++ ": ".toList ++ said ++ ['\n'])
      return status
    let path := (bindings.get? "PATH").getD "/bin:/usr/bin"
    let found ← search (some path) name
    match if name.isEmpty then .failed .missing else found with
    | .failed fault => failed fault.text (if fault = .missing then 127 else 126)
    | .found path _ entry =>
      let start ← startOf name path entry arguments
      match if start matches .failed .noProgram then scriptStart path arguments else start with
      | .failed fault =>
        failed fault.text (if fault = .missing then 127 else 126)
      | .shell dialect words =>
        asProcess g (do
          onlyExported bindings
          g.shell dialect words) false
      | .tool tool words =>
        let called := words.headD []
        runToolAmong g (startFrom g called n) bindings tool called (words.drop 1)

def runProgram (g : Engine) (path : Option Text) (name : Text) (arguments : List Text) :
    Act Nat := do
  let p ← process
  let failed (fault : FileFault) : Act Nat := do
    let (said, status) := startingFault p.dialect name fault
    warn said
    return status
  match ← search path name with
  | .failed fault =>
    if p.dialect = .extended && name.contains '/' && (← files).isDirectory p.directory name then
      failed .isDirectory
    else failed fault
  | .found path _ entry =>
    unless name.contains '/' do
      modifyProcess fun p => { p with called := name :: p.called.filter (· != name) }
    let start ← startOf name path entry arguments
    let canBeScript := start matches .failed .noProgram && isScript p.dialect entry
    match if canBeScript then scriptStart path arguments else start with
    | .failed fault => failed fault
    | .shell dialect words =>
      let bindings ← exported
      asProcess g do
        onlyExported bindings
        g.shell dialect words
    | .tool tool words => do
      let bindings ← exported
      let called := words.headD []
      runToolAmong g (startFrom g called 64) bindings tool called (words.drop 1)

/-- Starts a program for the shell, with variables of its own beside those of the shell. What
is in the background goes on while the program takes its time. -/
def startProgram (g : Engine) (path : Option Text) (name : Text) (arguments : List Text) :
    Act Nat := do
  catchUp g
  takePlace
  let before := (← world).clock
  let status ← runProgram g path name arguments
  if before < (← world).clock then catchUp g
  return status

end Act

end Shell
end TypedCommand
