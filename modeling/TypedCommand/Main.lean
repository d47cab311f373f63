import TypedCommand.Installation
import TypedCommand.Shell.System

/-!
The command line program: its words and variables in, its files read and written, its
output and exit code out.
-/

namespace TypedCommand

/-- The bytes of a file, if it can be read, each as the character of its number. -/
def readFile? (path : Text) : IO (Option Text) := do
  try
    let bytes ← IO.FS.readBinFile (String.ofList path)
    return some (bytes.toList.map fun b => Char.ofNat b.toNat)
  catch _ => return none

def writeFile (directory path bytes : Text) : IO Unit := do
  IO.FS.createDirAll (String.ofList directory)
  IO.FS.writeBinFile (String.ofList path)
    ⟨(bytes.map fun c => UInt8.ofNat c.toNat).toArray⟩

def readVariables : IO (SortedMap Text) := do
  let mut found := SortedMap.empty
  for name in ["JUST_EXT_HOME", "XDG_CONFIG_HOME", "HOME", "PATH"] do
    if let some value ← IO.getEnv name then
      found := found.insert name.toList value.toList
  return found

/-- The machine with a file as it is found, and the directories that it is in. -/
def withFile (m : Machine) (directory path : Text) : IO Machine := do
  let some content ← readFile? path | return m
  let files := (m.files.makeDirectories m.directory directory.toBytes).1
  return { m with
    files := ((files.write m.directory path.toBytes content).toOption).getD files }

end TypedCommand

open TypedCommand

def main (args : List String) : IO UInt32 := do
  let current : Text := (← IO.currentDir).toString.toList
  let installed := (Installation.files.makeDirectories ['/'] current.toBytes).1
  let mut m : Machine := {
    files := installed, directory := current.toBytes, bindings := ← readVariables }
  let directory := m.environment.directory?.getD []
  let paths : List Text := ["extensions.toml", "config.toml"].map fun name => joinPath directory name.toList
  for path in paths do
    m ← withFile m directory path
  let (after, response) := Machine.run Shell.system m (args.map String.toList)
  for path in paths do
    let content (m : Machine) := (m.files.read m.directory path.toBytes).toOption
    if let some bytes := content after then
      unless content m == some bytes do writeFile directory path bytes
  IO.print (String.ofList response.out)
  IO.eprint (String.ofList response.err)
  return response.code.toUInt32
