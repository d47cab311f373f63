import TypedCommand.Machine
import TypedCommand.Shell.Launch

/-!
The system whose programs are the simulated ones.
-/

namespace TypedCommand.Shell

/-- A program that has begun ends by a signal or with a code. -/
theorem Surroundings.completion_aftermathOf (ended : Except Jump Unit × State) (reason : Text) :
    (aftermathOf ended).completion ≠ .notStarted reason := by
  obtain ⟨result, after⟩ := ended
  unfold aftermathOf
  dsimp only
  split
  · exact nofun
  · exact nofun
  · exact nofun

/-- A program that has not been started leaves the files. -/
theorem Surroundings.files_of_notStarted {s : Surroundings} {name reason : Text}
    {arguments : List Text} (h : (s.launch name arguments).completion = .notStarted reason) :
    (s.launch name arguments).files = s.files := by
  revert h
  unfold launch
  dsimp only
  split
  · exact fun _ => rfl
  · split
    · exact fun _ => rfl
    · split
      · exact fun _ => rfl
      · exact fun h => absurd h (completion_aftermathOf _ reason)
      · exact fun _ => rfl

def Surroundings.ofMachine (m : Machine) : Surroundings where
  files := m.files
  directory := m.directory
  bindings := SortedMap.ofList
    (m.bindings.entries.map fun (name, value) => (name.toBytes, value.toBytes))

def system : System where
  start m l :=
    (Surroundings.ofMachine m).launch l.program.toBytes [l.argument.toBytes, l.line.toBytes]
  files_of_notStarted _ _ _ h := Surroundings.files_of_notStarted h

end TypedCommand.Shell
