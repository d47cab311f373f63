import TypedCommand.Registry.Format

/-!
The settings: through which shell commands run, and what is shown or asked on the way.
They are kept in a TOML document of their own, where each of them can be left out.
-/

namespace TypedCommand

structure Settings where
  shell : Option Text := none
  shellArgument : Option Text := none
  echoCommands : Bool := true
  confirmRemove : Bool := true
deriving DecidableEq

namespace Settings

open Toml (Node Scalar Statement Entries)
open Registry.Format (optional optionalText pair)

/-- The program that runs a command line, and the argument before that line. -/
def launcher (s : Settings) : Text × Text :=
  (s.shell.getD "sh", s.shellArgument.getD "-c")

def truth (get : Text → Option Node) (key : Text) (default : Bool) : Option Bool :=
  match get key with
  | none => some default
  | some (.scalar (.boolean b)) => some b
  | some _ => none

def keys : List Text :=
  ["shell".toList, "shell_arg".toList, "echo_commands".toList, "confirm_remove".toList]

def ofDocument? (document : Entries) : Option Settings :=
  if document.isReadableBeside keys then do
    return {
      shell := ← optional document.get? "shell"
      shellArgument := ← optional document.get? "shell_arg"
      echoCommands := ← truth document.get? "echo_commands" true
      confirmRemove := ← truth document.get? "confirm_remove" true }
  else none

def read? (t : Text) : Option Settings := Toml.read? t >>= ofDocument?

def write (s : Settings) : Text :=
  Toml.writeDocument (optionalText "shell" s.shell ++ optionalText "shell_arg" s.shellArgument ++
    [pair "echo_commands" (.boolean s.echoCommands),
      pair "confirm_remove" (.boolean s.confirmRemove)])

def ofFile? : Option Text → Option Settings
  | none => some {}
  | some content => read? content

end Settings
end TypedCommand
