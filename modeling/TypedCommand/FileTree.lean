import TypedCommand.Number.Integer
import TypedCommand.SortedMap
import TypedCommand.Text.Bytes

/-!
Files, directories and links. A path leads from a directory through names to a place; what
is at a place is an entry. A link leads on to another path; some things are done through a
link at the end of a path, and others to the link itself. Paths, names and contents are
sequences of bytes. Whatever cannot be done with a path fails with the fault that stops it
first.
-/

namespace TypedCommand

inductive FileFault
  | missing
  | noProgram
  | denied
  | present
  | notDirectory
  | isDirectory
  | invalid
  | nameTooLong
  | notEmpty
  | tooManyLinks
  | badDescriptor
  | notText
deriving DecidableEq

namespace FileFault

def text : FileFault → Text
  | missing => "No such file or directory"
  | noProgram => "Exec format error"
  | denied => "Permission denied"
  | present => "File exists"
  | notDirectory => "Not a directory"
  | isDirectory => "Is a directory"
  | invalid => "Invalid argument"
  | nameTooLong => "File name too long"
  | notEmpty => "Directory not empty"
  | tooManyLinks => "Too many levels of symbolic links"
  | badDescriptor => "Bad file descriptor"
  | notText => "stream did not contain valid UTF-8"

def number? : FileFault → Option Nat
  | missing => some 2
  | noProgram => some 8
  | denied => some 13
  | present => some 17
  | notDirectory => some 20
  | isDirectory => some 21
  | invalid => some 22
  | nameTooLong => some 36
  | notEmpty => some 39
  | tooManyLinks => some 40
  | badDescriptor => some 9
  | notText => none

def report (fault : FileFault) : Text :=
  fault.text ++ match fault.number? with
    | some n => " (os error " ++ Text.ofNat n ++ [')']
    | none => []

end FileFault

/-- Why something cannot be written: it is not open for that, nobody reads it, or there is no
room for it. -/
inductive WriteFault
  | closed
  | broken
  | full
deriving DecidableEq

def WriteFault.text : WriteFault → Text
  | closed => "Bad file descriptor"
  | broken => "Broken pipe"
  | full => "No space left on device"

/-- What is at a place: a directory, a file with its bytes, a device on which nothing is
kept and that is read as a pattern over and over again, a program by its name, or a link
to a path. -/
inductive Entry
  | directory
  | file (content : Text) (isExecutable : Bool)
  | device (pattern : Text)
  | program (name : Text)
  | link (target : Text)

def Entry.isExecutable : Entry → Bool
  | .directory => true
  | .file _ x => x
  | .device _ => false
  | .program _ => true
  | .link _ => true

def Entry.isDirectory : Entry → Bool
  | .directory => true
  | _ => false

def Entry.isLink : Entry → Bool
  | .link _ => true
  | _ => false

/-- The entries by their places. A place is an absolute path without empty names, `.` and
`..`; that of the root is a slash. Some places are names of one and the same file. -/
structure FileTree where
  entries : SortedMap Entry := SortedMap.empty
  /-- The places of each file that has several. -/
  shared : List (List Text) := []

namespace FileTree

def child (directory name : Text) : Text :=
  if directory = ['/'] then '/' :: name else directory ++ '/' :: name

def baseName (place : Text) : Text := (place.reverse.takeWhile (· != '/')).reverse

def parent (place : Text) : Text :=
  match (place.reverse.dropWhile (· != '/')).drop 1 with
  | [] => ['/']
  | rest => rest.reverse

def names (path : Text) : List Text := (path.splitOn '/').filter (fun name => !name.isEmpty)

/-- The path that continues a path, without looking at what is there: each `..` takes back
the name before it. -/
def along (route path : Text) : Text :=
  let step (before : List Text) (name : Text) : List Text :=
    if name = ['.'] then before else if name = ['.', '.'] then before.dropLast else before ++ [name]
  let before := if path.head? = some '/' then [] else names route
  '/' :: ['/'].intercalate ((names path).foldl step before)

def nameLimit : Nat := 255

def pathLimit : Nat := 4096

def linkLimit : Nat := 40

def at? (t : FileTree) (place : Text) : Option Entry := t.entries.get? place

def start (directory path : Text) : Text := if path.head? = some '/' then ['/'] else directory

def endsInSlash (path : Text) : Bool := path.getLast? == some '/'

/-- The names that a link leads through; one that ends with a slash leads into a directory. -/
def linkNames (target : Text) : List Text :=
  names target ++ if endsInSlash target then [['.']] else []

/-- The place that names lead to from a directory. There need not be anything at it, only at
the places before it. Where a link leads, with the names behind it, is found by `through`; a
link at the end is followed if `follows` says so. -/
def walkNames (t : FileTree) (follows : Bool)
    (through : Text → List Text → Except FileFault Text) :
    Text → List Text → Except FileFault Text
  | place, [] => .ok place
  | place, name :: rest =>
    match t.at? place with
    | none => .error .missing
    | some entry =>
      if !entry.isDirectory then .error .notDirectory
      else if name = ['.'] then walkNames t follows through place rest
      else if name = ['.', '.'] then walkNames t follows through (parent place) rest
      else if nameLimit < name.length then .error .nameTooLong
      else
        let next := child place name
        match t.at? next with
        | some (.link target) =>
          if rest.isEmpty && !follows then .ok next
          else through (start place target) (linkNames target ++ rest)
        | _ => walkNames t follows through next rest

def walkFrom (t : FileTree) (follows : Bool) : Nat → Text → List Text → Except FileFault Text
  | 0 => t.walkNames follows fun _ _ => .error .tooManyLinks
  | links + 1 => t.walkNames follows (walkFrom t follows links)

def walk (t : FileTree) (place : Text) (names : List Text) (follows : Bool := true) :
    Except FileFault Text :=
  t.walkFrom follows linkLimit place names

def checkPath (path : Text) : Except FileFault Unit :=
  if path.isEmpty then .error .missing
  else if pathLimit ≤ path.length then .error .nameTooLong
  else .ok ()

/-- The place of a path, whether or not there is anything at it. A slash at the end of the
path leads through a link. -/
def place (t : FileTree) (directory path : Text) (follows : Bool := true) : Except FileFault Text := do
  checkPath path
  t.walk (start directory path) (names path) (follows || endsInSlash path)

def locate (t : FileTree) (follows : Bool) (directory path : Text) : Except FileFault (Text × Entry) := do
  let place ← t.place directory path follows
  match t.at? place with
  | none => .error .missing
  | some entry =>
    if endsInSlash path && !entry.isDirectory then .error .notDirectory else .ok (place, entry)

/-- The place that a path leads to in the end, and what is at it. -/
def find (t : FileTree) (directory path : Text) : Except FileFault (Text × Entry) :=
  t.locate true directory path

/-- The place of a path, and what is at it: a link counts as such. -/
def look (t : FileTree) (directory path : Text) : Except FileFault (Text × Entry) :=
  t.locate false directory path

def find? (t : FileTree) (directory path : Text) : Option (Text × Entry) :=
  (t.find directory path).toOption

def look? (t : FileTree) (directory path : Text) : Option (Text × Entry) :=
  (t.look directory path).toOption

def isDirectory (t : FileTree) (directory path : Text) : Bool :=
  (t.find? directory path).any (·.2.isDirectory)

def put (t : FileTree) (place : Text) (entry : Entry) : FileTree :=
  { t with entries := t.entries.insert place entry }

def fullPlace : Text := "/dev/full"

def descriptorsPlace : Text := "/proc/self/fd/"

def deviceLength : Nat := 1048576

def deviceText (pattern : Text) : Text :=
  (List.replicate (deviceLength / pattern.length) pattern).flatten

def read (t : FileTree) (directory path : Text) : Except FileFault Text := do
  match (← t.find directory path).2 with
  | .directory => .error .isDirectory
  | .file content _ => .ok content
  | .device pattern => .ok (deviceText pattern)
  | .program _ => .ok "\x7fELF"
  | .link _ => .error .tooManyLinks

/-- The place of a file that is to be written, and what it holds so far, if it is there. -/
def writable (t : FileTree) (directory path : Text) : Except FileFault (Text × Option Entry) := do
  let place ← t.place directory path
  match t.at? place with
  | some .directory => .error .isDirectory
  | some entry => if endsInSlash path then .error .notDirectory else .ok (place, some entry)
  | none =>
    if endsInSlash path then .error .isDirectory
    else if (t.at? (parent place)).any (·.isDirectory) then .ok (place, none)
    else .error .missing

def placesOf (t : FileTree) (place : Text) : List Text :=
  (t.shared.find? (·.contains place)).getD [place]

def change (t : FileTree) (place : Text) (entry : Entry) : FileTree :=
  (t.placesOf place).foldl (fun (t : FileTree) p => t.put p entry) t

/-- Puts a content where a file can be written; a device keeps nothing. -/
def fill (t : FileTree) (place content : Text) : FileTree :=
  match t.at? place with
  | some (.file _ x) => t.change place (.file content x)
  | some (.device _) => t
  | _ => t.put place (.file content false)

def write (t : FileTree) (directory path content : Text) : Except FileFault FileTree := do
  let (place, _) ← t.writable directory path
  return t.fill place content

def makeAt (t : FileTree) (base : Text) (names : List Text) : Except FileFault FileTree := do
  let place ← t.walk base names false
  if (t.at? place).isSome then .error .present
  else if (t.at? (parent place)).any (·.isDirectory) then .ok (t.put place .directory)
  else .error .missing

def makeDirectory (t : FileTree) (directory path : Text) : Except FileFault FileTree := do
  checkPath path
  t.makeAt (start directory path) (names path)

/-- Makes the first of some directories, each of which is in the next one; those that are
missing are made first. A directory that is there already is as good as a new one. -/
def makeChain (t : FileTree) (base : Text) : List (List Text) → FileTree × Option FileFault
  | [] => (t, none)
  | names :: above =>
    let settle (t : FileTree) (fault : FileFault) : FileTree × Option FileFault :=
      match t.walk base names with
      | .ok place => if (t.at? place).any (·.isDirectory) then (t, none) else (t, some fault)
      | .error _ => (t, some fault)
    match t.makeAt base names with
    | .ok t => (t, none)
    | .error .missing => match t.makeChain base above with
      | (t, some fault) => (t, some fault)
      | (t, none) => match t.makeAt base names with
        | .ok t => (t, none)
        | .error fault => settle t fault
    | .error fault => settle t fault

/-- The names of a path, of the directory that it is in, of the directory that this one is
in, and so on. -/
def ancestors (names : List Text) : List (List Text) :=
  (List.range names.length).map fun n => names.take (names.length - n)

/-- Makes a directory and those that it is in. What could be made stays even if the rest
could not. -/
def makeDirectories (t : FileTree) (directory path : Text) : FileTree × Option FileFault :=
  match checkPath path with
  | .error fault => (t, some fault)
  | .ok () =>
    let above := (names path).filter (· != ['.'])
    t.makeChain (start directory path) (names path :: ancestors above.dropLast)

def isBelow (directory place : Text) : Bool :=
  place != directory && (child directory []).isPrefixOf place

def children (t : FileTree) (directory : Text) : List Text :=
  (t.entries.keys.filter fun place => isBelow directory place && parent place == directory).map
    baseName

def sharedBy (t : FileTree) (f : Text → Option Text) : List (List Text) :=
  (t.shared.map (·.filterMap f)).filter (1 < ·.length)

def prune (t : FileTree) (place : Text) : FileTree :=
  let stays (key : Text) : Bool := key != place && !isBelow place key
  { entries := t.entries.filterKeys stays
    shared := t.sharedBy fun p => if stays p then some p else none }

def graft (t : FileTree) (source target : Text) : FileTree :=
  t.entries.entries.foldl (fun (t : FileTree) e =>
    if e.1 = source then t.put target e.2
    else if isBelow source e.1 then t.put (target ++ e.1.drop source.length) e.2
    else t) t

/-- The tree with a place, and all that is below it, moved to another one, where nothing
stays. -/
def move (t : FileTree) (source target : Text) : FileTree :=
  let t := t.prune target
  let moved (place : Text) : Text :=
    if place = source then target
    else if isBelow source place then target ++ place.drop source.length
    else place
  let shared := t.sharedBy fun p => some (moved p)
  { (t.graft source target).prune source with shared }

def share (t : FileTree) (place target : Text) : FileTree :=
  match t.at? place with
  | none => t
  | some entry =>
    let others := t.shared.filter fun group => !group.contains place
    { t.put target entry with shared := (t.placesOf place ++ [target]) :: others }

end FileTree
end TypedCommand
