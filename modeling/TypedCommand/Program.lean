import TypedCommand.Program.CommandLine
import TypedCommand.Program.Environment
import TypedCommand.Invocation
import TypedCommand.NameForest
import TypedCommand.Program.Completion
import TypedCommand.Settings
import TypedCommand.Store
import TypedCommand.Usage

/-!
One run of the program, from the contents of its two files to their new contents, the
text it prints, the program it calls, and how it ends. What has been written, printed or
called stays so if the run fails afterwards. Starting the called program is left to the
caller.
-/

namespace TypedCommand

/-- What stops a file from being read, or from being written. -/
structure Faults where
  reading : Option Text := none
  writing : Option Text := none

/-- The files of the program: the directory they are in, if there is one, what each of them
holds, and what cannot be done with it. -/
structure Home where
  directory : Except DirectoryFault Text
  store : Store
  settings : Option Text
  storeFaults : Faults := {}
  settingsFaults : Faults := {}

/-- A program to be started, and the command line that it is given last. -/
structure Launch where
  program : Text
  argument : Text
  line : Text

/-- What a run has done so far: the files as they are by now, what it has printed, the file
that it has opened, and the program that it has called. -/
structure Trace where
  home : Home
  output : Text := []
  opened : Option Text := none
  launched : Option Launch := none

inductive Ending
  | done
  | misused (word : Text)
  | failed (failure : Failure)

structure Outcome extends Trace where
  ending : Ending := .done

namespace Program

/-- A part of a run. If it fails, what it has done until then remains. -/
abbrev Action := EStateM Failure Trace

def line (t : Text) : Text := t ++ ['\n']

def say (t : Text) : Action Unit :=
  modify fun trace => { trace with output := trace.output ++ line t }

def check : Option Text → Action Unit
  | none => return
  | some reason => throw (.inaccessible reason)

def files : Action (Text × Text) := do
  match (← get).home.directory with
  | .ok directory =>
    return (joinPath directory "extensions.toml", joinPath directory "config.toml")
  | .error fault => throw (.noDirectory fault)

def orFail {ε α : Type} (result : Except ε α) (failure : ε → Failure) : Action α :=
  liftExcept (result.mapError failure)

def ask {α : Type} (file : Text) (question : Store → Except RegistryError α) : Action α := do
  let home := (← get).home
  check home.storeFaults.reading
  orFail (question home.store) (.registry file)

def keep (r : Registry) : Action Unit := do
  check (← get).home.storeFaults.writing
  modify fun trace => { trace with home.store := some (Registry.Format.write r) }

def save (file : Text) (s : Specification) (force : Bool) : Action Unit := do
  keep (← ask file (·.saving s force))

def settings (file : Text) : Action Settings := do
  let home := (← get).home
  check home.settingsFaults.reading
  match Settings.ofFile? home.settings with
  | some s => return s
  | none => throw (.settingsUnreadable file)

def list : Action Unit := do
  let (file, _) ← files
  let specs ← ask file Store.list
  if specs.isEmpty then
    say "\nNo hay extensiones registradas. Usa 'just ext add' para empezar."
  else
    say "\nExtensiones Registradas:"
    say (NameForest.render specs)

/-- Compiles a declaration for a template, and saves the specification or, in a dry
run, shows the document that it makes. -/
def add (dryRun force : Bool) (declaration template : Text) : Action Unit := do
  let s ← orFail (Specification.ofText template declaration) (.declarationInvalid declaration)
  if dryRun then say (Registry.Format.writeSpecification s)
  else
    let (file, _) ← files
    (save file s force).adaptExcept (.notSaved s.commandName)
    say ("\n✔ Extensión " ++ s.commandName.inQuotes ++ " guardada.")
    say ("  " ++ Usage.synopsis s)

def askDeclaration (template : Text) : Action Unit := do
  say ("\nComando a envolver:\n  " ++ template)
  -- there is no terminal to ask on
  throw .declarationNotGiven

def showUsage (name : Text) : Action Unit := do
  let (file, _) ← files
  let s ← ask file (·.load name)
  say (Usage.render s)

/-- Removes a specification, which has to be confirmed unless the settings say
otherwise. -/
def remove (confirmed : Bool) (name : Text) : Action Unit := do
  let (file, settingsFile) ← files
  let settings ← settings settingsFile
  let s ← ask file (·.load name)
  if settings.confirmRemove && !confirmed then throw .notConfirmed
  else
    let (_, r) ← ask file (·.removing name)
    keep r
    say ("\n✔ Extensión " ++ s.commandName.inQuotes ++ " eliminada.")

def makeStore (file : Text) : Action Unit := do
  let home := (← get).home
  if home.store.isSome || home.storeFaults.reading.isSome then return
  else
    match home.storeFaults.writing with
    | some reason => throw (.notMade file reason)
    | none => modify fun trace => { trace with home.store := some [] }

def edit : Action Unit := do
  let (file, _) ← files
  makeStore file
  say ("Abriendo " ++ file ++ "...")
  modify fun trace => { trace with opened := some file }

def makeSettings : Action Unit := do
  let home := (← get).home
  if home.settings.isSome || home.settingsFaults.reading.isSome then return
  else
    check home.settingsFaults.writing
    modify fun trace => { trace with home.settings := some (Settings.write {}) }

def configure : Action Unit := do
  let (_, settingsFile) ← files
  makeSettings
  say ("Ajustes en: " ++ settingsFile)

def launch (settings : Settings) (command : Text) : Action Unit :=
  modify fun trace =>
    { trace with launched := some ⟨settings.launcher.1, settings.launcher.2, command⟩ }

def execute (settingsFile command : Text) : Action Unit := do
  let settings ← settings settingsFile
  if settings.echoCommands then say ("\n> " ++ command)
  launch settings command

/-- Calls the command that the words belong to, or, in a dry run, shows it. -/
def invoke (dryRun : Bool) (words : List Text) : Action Unit := do
  let (file, settingsFile) ← files
  let some (s, words) ← ask file (·.resolve words) | throw (.unknownCommand words)
  match ← orFail (Arguments.bind s words) (.callInvalid (Usage.synopsis s)) with
  | .help => say (Usage.render s)
  | .arguments a =>
    let command ← orFail (Invocation.command s a) (.callInvalid (Usage.synopsis s))
    if dryRun then say command else execute settingsFile command

def carryOut (dryRun : Bool) : Request → Action Unit
  | .list => list
  | .add force (some declaration) template => add dryRun force declaration template
  | .add _ none template => askDeclaration template
  | .showUsage name => showUsage name
  | .remove confirmed name => remove confirmed name
  | .edit => edit
  | .configure => configure
  | .invoke words => invoke dryRun words

/-- Whether a request asks for the directory of the files. A specification that is only
shown, or is none, leaves it alone. -/
def needsFiles (dryRun : Bool) : Request → Bool
  | .add _ (some declaration) template =>
    !dryRun && (Specification.ofText template declaration).toOption.isSome
  | .add _ none _ => false
  | _ => true

def usesFiles (words : List Text) : Bool :=
  match CommandLine.read words with
  | .call dryRun words => (Request.read words).toOption.any (needsFiles dryRun)
  | _ => false

def versionText : Text := "just-ext 0.1.0"

def helpText : Text :=
  "just: convierte cualquier comando de shell en un subcomando tipado.\n\n" ++
    "Usage: just [OPTIONS] [ARGS]...\n\n" ++
    "Options:\n  -n, --dry-run  Muestra el comando final en lugar de ejecutarlo\n" ++
    "  -h, --help     Print help\n  -V, --version  Print version"

def call (dryRun : Bool) (words : List Text) : Action Unit := do
  carryOut dryRun (← liftExcept (Request.read words))

/-- How an action ends on the files of a home, and what it has done by then. -/
def Action.outcome (action : Action Unit) (home : Home) : Outcome :=
  match action.run { home } with
  | .ok _ trace => { toTrace := trace }
  | .error failure trace => { toTrace := trace, ending := .failed failure }

def run (home : Home) (words : List Text) : Outcome :=
  match CommandLine.read words with
  | .help => { home, output := line helpText }
  | .version => { home, output := line versionText }
  | .misuse word => { home, ending := .misused word }
  | .call dryRun words => (call dryRun words).outcome home

/-- The exit code of a run that starts no program, and what it reports. -/
def ended : Ending → Nat × Text
  | .failed failure => (1, failure.report)
  | .misused word => (2, line ("error: " ++ word.inQuotes))
  | _ => (0, [])

/-- The exit code after a command, and what is reported: the code of a command that fails
stands for itself. -/
def completed (ending : Ending) (command : Text) : Completion → Nat × Text
  | .exited 0 => ended ending
  | .exited code => (code, [])
  | .killed => (1, (Failure.killed command).report)
  | .notStarted reason => (1, (Failure.notStarted command reason).report)

end Program
end TypedCommand
