import TypedCommand.Program.Completion
import TypedCommand.Shell.Evaluation

/-!
A program started from outside: found as its path or its name says, and run to its end among
files and variables, with nothing to read.
-/

namespace TypedCommand

namespace Shell

/-- Where a program is started: the files, the working directory, and the variables. -/
structure Surroundings where
  files : FileTree := {}
  directory : Text := ['/']
  bindings : SortedMap Text := SortedMap.empty

namespace Surroundings

def programAt (s : Surroundings) (path : Text) : Except FileFault Entry := do
  let (_, entry) ← s.files.find s.directory path
  if entry.isExecutable && !entry.isDirectory then return entry else throw .denied

/-- The program of a name in the directories of a search path. What is there and cannot be
started counts only if nothing else is found. -/
def programIn (s : Surroundings) (name : Text) (fault : FileFault) :
    List Text → Except FileFault (Text × Entry)
  | [] => .error fault
  | d :: rest =>
    let path := if d.isEmpty then name else d ++ '/' :: name
    match s.programAt path with
    | .ok entry => .ok (path, entry)
    | .error .denied => programIn s name .denied rest
    | .error _ => programIn s name fault rest

def program (s : Surroundings) (name : Text) : Except FileFault (Text × Entry) :=
  if name.contains '/' then (s.programAt name).map ((name, ·))
  else if name.isEmpty then .error .missing
  else if FileTree.nameLimit < name.length then .error .nameTooLong
  else programIn s name .missing
    (((s.bindings.get? "PATH").getD "/bin:/usr/bin").splitOn ':')

def state (s : Surroundings) : State where
  world := {
    files := s.files
    channels := #[.nowhere, .sink {}, .sink {}]
    nextProcess := 1001 }
  process := {
    name := "sh"
    directory := s.directory
    route := s.directory
    descriptors := [(0, 0), (1, 1), (2, 2)]
    number := 1000 }

def depth : Nat := 4000

def run (s : Surroundings) (start : Act.Start) : Act Unit := do
  let g := engine depth
  Act.onlyExported s.bindings
  match start with
  | .failed _ => return
  | .shell dialect words => Act.asShell g (g.shell dialect words)
  | .tool tool words =>
    let called := words.headD []
    Act.setStatus
      (← Act.runToolAmong g (Act.startFrom g called 64) s.bindings tool called (words.drop 1))

/-- What a program leaves that has run to its end. -/
def aftermathOf : Except Jump Unit × State → Aftermath
  | (result, after) =>
    let written (n : Nat) : Text := (after.world.channels[n]?.map Act.textOf).getD []
    { files := Act.filesOf after.world
      out := written 1
      err := written 2
      completion := match result with
        | .error (.killed _ _) => .killed
        | .error (.exit n) => .exited (n % 256)
        | _ => .exited (after.process.status % 256) }

def launch (s : Surroundings) (name : Text) (arguments : List Text) : Aftermath :=
  let failed (reason : Text) : Aftermath := { files := s.files, completion := .notStarted reason }
  if (name :: arguments).any (·.contains (Char.ofNat 0)) then
    failed "nul byte found in provided data"
  else match s.program name with
    | .error fault => failed (fault.report)
    | .ok (path, entry) =>
      match (Act.startOf name path entry arguments).run.run s.state with
      | (.ok (.failed fault), _) => failed (fault.report)
      | (.ok start, before) => aftermathOf ((s.run start).run.run before)
      | (.error _, _) => failed (FileFault.missing.report)

end Surroundings

end Shell
end TypedCommand
