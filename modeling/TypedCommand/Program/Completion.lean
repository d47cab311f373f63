import TypedCommand.FileTree

/-!
How a program that has been started comes to its end, and what it leaves behind.
-/

namespace TypedCommand

/-- How a started program ends: by itself with an exit code, by a signal, or before it has
begun. -/
inductive Completion
  | exited (code : Nat)
  | killed
  | notStarted (reason : Text)

structure Aftermath where
  files : FileTree
  out : Text := []
  err : Text := []
  completion : Completion

end TypedCommand
