import TypedCommand.Text

/-!
Where the program keeps its two files. A directory can be named outright; otherwise it
is the program's own below the directory for configurations.
-/

namespace TypedCommand

structure Environment where
  /-- The directory of the program, where it is named outright. -/
  override : Option Text := none
  /-- The directory for the configurations of all programs. -/
  configurations : Option Text := none
  /-- The directory of the user. -/
  user : Option Text := none
  /-- The directory of the account, which stands in for that of the user. -/
  account : Option Text := none

def joinPath (directory name : Text) : Text :=
  if directory.getLast? = some '/' then directory ++ name else directory ++ '/' :: name

namespace Environment

def nonEmpty? (value : Option Text) : Option Text := value.filter (fun t => !t.isEmpty)

def usual? (e : Environment) : Option Text :=
  ((nonEmpty? e.user).or e.account).map (joinPath · ".config")

/-- The directory for configurations: given by an absolute path, or the usual one. -/
def configurations? (e : Environment) : Option Text :=
  match e.configurations with
  | some path => if path.head? = some '/' then some path else e.usual?
  | none => e.usual?

def directory? (e : Environment) : Option Text :=
  match nonEmpty? e.override with
  | some path => some path
  | none => e.configurations?.map (joinPath · "just-ext")

end Environment
end TypedCommand
