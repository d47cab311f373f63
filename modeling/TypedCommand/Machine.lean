import TypedCommand.Program
import TypedCommand.Program.Completion

/-!
The program among files and variables: a run finds its directory, reads its two files,
writes what it changes, and starts the program that it has called. How a started program
does its work is not said here.
-/

namespace TypedCommand

/-- What a run answers: its exit code and what it prints on the two channels. -/
structure Response where
  code : Nat
  out : Text
  err : Text

/-- Where the program runs: the files, as bytes, the working directory, the variables, and
the directory of the account that it runs under. -/
structure Machine where
  files : FileTree
  directory : Text
  bindings : SortedMap Text := SortedMap.empty
  account : Option Text := none

namespace Machine

def environment (m : Machine) : Environment where
  override := m.bindings.get? "JUST_EXT_HOME"
  configurations := m.bindings.get? "XDG_CONFIG_HOME"
  user := m.bindings.get? "HOME"
  account := m.account

/-- What a file holds, if there is anything at its path, and what cannot be done with it. -/
def inspect (m : Machine) (path : Text) : Option Text × Faults :=
  let writing := match m.files.writable m.directory path.toBytes with
    | .ok _ => none
    | .error fault => some fault.report
  match m.files.find? m.directory path.toBytes with
  | none => (none, { writing })
  | some _ => match m.files.read m.directory path.toBytes with
    | .error fault => (none, { reading := some fault.report, writing })
    | .ok content => match Text.ofBytes? content with
      | some t => (some t, { writing })
      | none => (none, { reading := some FileFault.notText.report, writing })

/-- The machine with the directory of the program, which is made if it is missing. -/
def withDirectory (m : Machine) : Machine × Except DirectoryFault Text :=
  match m.environment.directory? with
  | none => (m, .error .unknown)
  | some path =>
    if (m.files.find? m.directory path.toBytes).isSome then (m, .ok path)
    else match m.files.makeDirectories m.directory path.toBytes with
      | (files, none) => ({ m with files }, .ok path)
      | (files, some fault) =>
        ({ m with files }, .error (.notMade path fault.report))

def home (m : Machine) (directory : Except DirectoryFault Text) : Home :=
  match directory with
  | .error _ => { directory, store := none, settings := none }
  | .ok path =>
    let (store, storeFaults) := m.inspect (joinPath path "extensions.toml")
    let (settings, settingsFaults) := m.inspect (joinPath path "config.toml")
    { directory, store, settings, storeFaults, settingsFaults }

def keep (m : Machine) (path : Text) (before after : Option Text) : Machine :=
  match after with
  | none => m
  | some t =>
    if before = after then m
    else match m.files.write m.directory path.toBytes t.toBytes with
      | .ok files => { m with files }
      | .error _ => m

def withHome (m : Machine) (before after : Home) : Machine :=
  match after.directory with
  | .error _ => m
  | .ok path =>
    (m.keep (joinPath path "extensions.toml") before.store after.store).keep
      (joinPath path "config.toml") before.settings after.settings

end Machine

/-- The system that a machine runs under, which starts programs. One that cannot be started
leaves the files. -/
structure System where
  start : Machine → Launch → Aftermath
  files_of_notStarted : ∀ m l reason, (start m l).completion = .notStarted reason →
    (start m l).files = m.files

namespace Machine

def run (system : System) (m : Machine) (words : List Text) : Machine × Response :=
  let (m, directory) :=
    if Program.usesFiles words then m.withDirectory else (m, .error .unknown)
  let before := m.home directory
  let outcome := Program.run before words
  let m := m.withHome before outcome.home
  match outcome.launched with
  | some l =>
    let after := system.start m l
    let (code, report) := Program.completed outcome.ending l.line after.completion
    ({ m with files := after.files },
      { code, out := outcome.output ++ Text.ofBytes after.out,
        err := Text.ofBytes after.err ++ report })
  | none =>
    let (code, report) := Program.ended outcome.ending
    (m, { code, out := outcome.output, err := report })

end Machine
end TypedCommand
