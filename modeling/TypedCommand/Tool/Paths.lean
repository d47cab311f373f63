import TypedCommand.Tool.Call

/-!
Programs that work on paths as texts, and programs that say what paths lead to.
-/

namespace TypedCommand

namespace Tool

/-- A text without the slashes at its end; a text of slashes alone is one slash. -/
def dropSlashes (t : Text) : Text :=
  let kept := Text.trimEnd (· == '/') t
  if kept.isEmpty && !t.isEmpty then ['/'] else kept

def lastName (path : Text) : Text :=
  let t := dropSlashes path
  if t = ['/'] then t else FileTree.baseName t

def frontOf (path : Text) : Text :=
  let t := dropSlashes path
  if t.contains '/' then
    let front := (t.reverse.dropWhile (· != '/')).reverse
    if front.isEmpty then ['/'] else dropSlashes front
  else ['.']

def dropEnding (ending name : Text) : Text :=
  if ending.reverse.isPrefixOf name.reverse && ending != name then
    name.take (name.length - ending.length)
  else name

def basename (c : Call) : Reply :=
  let forms := [flag 'a' "multiple", valued 's' "suffix", flag 'z' "zero"]
  c.withOptions forms (fun o =>
    let last := if o.has 'z' then Char.ofNat 0 else '\n'
    let shown (ending : Text) (paths : List Text) : Reply :=
      Reply.ofText (paths.flatMap fun p => dropEnding ending (lastName p) ++ [last])
    match o.operands with
    | [] => c.misused "missing operand"
    | a :: rest =>
      if o.has 'a' || o.has 's' then shown ((o.value? 's').getD []) o.operands
      else match rest with
        | [] => shown [] [a]
        | [ending] => shown ending [a]
        | _ :: extra :: _ => c.misused ("extra operand " ++ extra.inQuotes)) 1 false

def dirname (c : Call) : Reply :=
  c.withOptions [flag 'z' "zero"] fun o =>
    if o.operands.isEmpty then c.misused "missing operand"
    else Reply.ofText (asLines (o.operands.map frontOf))

/-- How much of a path has to be there for its place to be shown. -/
inductive Presence
  | whole
  | front
  | nothing

/-- The place that a path leads to with so much of it there. Where nothing has to be there,
the names behind the part that is there are taken as they are. -/
def placeOf (c : Call) (presence : Presence) (path : Text) : Except FileFault Text :=
  match presence with
  | .whole => (c.files.find c.directory path).map Prod.fst
  | .front => do
    let place ← c.files.place c.directory path
    if FileTree.endsInSlash path && (c.files.at? place).any (fun e => !e.isDirectory) then
      throw .notDirectory
    return place
  | .nothing =>
    let names := FileTree.names path
    let base := FileTree.start c.directory path
    let reached := (List.range (names.length + 1)).reverse.findSome? fun n =>
      ((c.files.walk base (names.take n)).toOption.filter
        fun place => n = names.length || (c.files.at? place).any (·.isDirectory)).map fun place =>
          (place, names.drop n)
    let (place, rest) := reached.getD (base, names)
    .ok (rest.foldl (fun place name =>
      if name = ['.'] then place
      else if name = ['.', '.'] then FileTree.parent place
      else FileTree.child place name) place)

def realpath (c : Call) : Reply :=
  let forms := [flag 'e' "canonicalize-existing", flag 'm' "canonicalize-missing", flag 'q' "quiet",
    flag 's' "strip", flag 'z' "zero", flag 'L', flag 'P']
  c.withOptions forms fun o =>
    if o.operands.isEmpty then c.misused "missing operand"
    else
      let presence := match o.lastOf? ['e', 'm'] with
        | some 'e' => Presence.whole
        | some _ => .nothing
        | none => .front
      let found := o.operands.map fun path =>
        (path, if o.has 's' then .ok (FileTree.along c.directory path) else placeOf c presence path)
      { printed := found.map fun (path, r) => match r with
          | .ok place => (1, place ++ ['\n'])
          | .error e => (2, if o.has 'q' then [] else c.message (Call.faultText path e))
        status := if found.all (·.2.toBool) then 0 else 1 }

def readlink (c : Call) : Reply :=
  let forms := [flag 'f' "canonicalize", flag 'e' "canonicalize-existing", flag 'n' "no-newline",
    flag 'm' "canonicalize-missing", flag 'q' "quiet", flag 's' "silent", flag 'v' "verbose",
    flag 'z' "zero"]
  c.withOptions forms fun o =>
    if o.operands.isEmpty then c.misused "missing operand"
    else
      let value (path : Text) : Except FileFault Text :=
        match o.lastOf? ['f', 'e', 'm'] with
        | some 'e' => placeOf c .whole path
        | some 'm' => placeOf c .nothing path
        | some _ => placeOf c .front path
        | none => match c.files.look c.directory path with
          | .ok (_, .link target) => .ok target
          | .ok _ => .error .invalid
          | .error e => .error e
      let found := o.operands.map fun path => (path, value path)
      let last : Text := if o.has 'z' then [Char.ofNat 0]
        else if o.has 'n' && o.operands.length = 1 then [] else ['\n']
      { printed := found.map fun (path, r) => match r with
          | .ok t => (1, t ++ last)
          | .error e => (2, if o.has 'v' then c.message (Call.faultText path e) else [])
        status := if found.all (·.2.toBool) then 0 else 1 }

def pwd (c : Call) : Reply :=
  c.withOptions [flag 'L' "logical", flag 'P' "physical"] fun o =>
    let route := (c.bindings.get? "PWD").getD []
    let isRoute := route.head? = some '/' && (c.files.find? ['/'] route).any (·.1 == c.directory)
    Reply.ofText ((if o.lastOf? ['L', 'P'] = some 'L' && isRoute then route else c.directory) ++ ['\n'])

structure Listing where
  showsHidden : Bool := false
  showsDots : Bool := false
  isReversed : Bool := false
  separator : Text := ['\n']
  marksDirectories : Bool := false
  marksPrograms : Bool := false
  /-- Whether links are taken for what they lead to. -/
  follows : Bool := false
  quotes : Bool := false
  isRecursive : Bool := false

def Listing.name (s : Listing) (name : Text) (entry : Entry) : Text :=
  let shown := if s.quotes then '"' :: name ++ ['"'] else name
  if entry.isDirectory && s.marksDirectories then shown ++ ['/']
  else if s.marksPrograms && entry.isLink then shown ++ ['@']
  else if s.marksPrograms && entry.isExecutable && !entry.isDirectory then shown ++ ['*']
  else shown

def Listing.joinNames (s : Listing) (names : List Text) : Text :=
  if names.isEmpty then [] else s.separator.intercalate names ++ ['\n']

def Listing.namesIn (s : Listing) (t : FileTree) (place : Text) : List Text :=
  let names := (t.children place).filter fun n => s.showsHidden || n.head? != some '.'
  let names := (if s.showsDots then [['.'], ['.', '.']] else []) ++ names
  if s.isReversed then names.reverse else names

def Listing.entryAt (s : Listing) (t : FileTree) (place name : Text) : Except FileFault Entry :=
  if s.follows then (t.find place name).map Prod.snd else (t.look place name).map Prod.snd

def Listing.directory (s : Listing) (t : FileTree) (place : Text) : Text :=
  s.joinNames ((s.namesIn t place).map fun n =>
    s.name n ((s.entryAt t place n).toOption.getD (.device [])))

def Listing.faults (s : Listing) (t : FileTree) (place : Text) : List (Text × FileFault) :=
  if !s.marksDirectories then [] else (s.namesIn t place).filterMap fun n => match s.entryAt t place n with
    | .error e => some (n, e)
    | .ok _ => none

def Listing.below (s : Listing) (t : FileTree) : Nat → Text → Text → List (Text × Text)
  | 0, path, place => [(path, place)]
  | n + 1, path, place =>
    let inside := (s.namesIn t place).filter fun name =>
      name != ['.'] && name != ['.', '.'] &&
        (s.entryAt t place name).toOption.any (·.isDirectory)
    (path, place) :: inside.flatMap fun name =>
      s.below t n (FileTree.child (dropSlashes path) name)
        ((t.place place name).toOption.getD (FileTree.child place name))

def ls (c : Call) : Reply :=
  let forms := [flag 'a' "all", flag 'A' "almost-all", flag '1', flag 'd' "directory", flag 'r' "reverse",
    flag 'R' "recursive", flag 'F' "classify", flag 'p', flag 'm', flag 'Q' "quote-name", flag 't',
    flag 'S', flag 'C', flag 'x', flag 'U', flag 'f', flag 'v', flag 'X', flag 'h' "human-readable",
    flag 'k', flag 'q', flag 'b', flag 'N', flag 'B', flag 'g', flag 'G', flag 'n', flag 'l', flag 'i',
    flag 's', flag 'L' "dereference", flag 'H' "dereference-command-line", valued 'c' "color",
    valued 'w' "width"]
  c.withOptions forms (fun o =>
    let spaced := o.lastOf? "1Cxm".toList
    let s : Listing := {
      showsHidden := o.has 'a' || o.has 'A'
      showsDots := o.has 'a'
      isReversed := o.has 'r'
      separator := match spaced with
        | some 'm' => ", "
        | some 'C' | some 'x' => "  "
        | _ => ['\n']
      marksDirectories := o.has 'F' || o.has 'p'
      marksPrograms := o.has 'F'
      follows := o.has 'L'
      quotes := o.has 'Q'
      isRecursive := o.has 'R' }
    let operands := if o.operands.isEmpty then [['.']] else o.operands
    let isPlain := (o.has 'd' || o.has 'F' || o.has 'l') && !o.has 'H'
    let found := operands.map fun path =>
      (path, if s.follows then c.files.find c.directory path
        else match c.files.find c.directory path with
          | .ok (place, entry) =>
            if !isPlain && (entry.isDirectory || o.has 'H') then .ok (place, entry)
            else c.files.look c.directory path
          | .error _ => c.files.look c.directory path)
    let errors := found.flatMap fun (path, r) => match r with
      | .error e => c.message ("cannot access " ++ Call.quoteAlways path ++ ": " ++ e.text)
      | .ok _ => []
    let known := (found.filterMap fun (path, r) => match r with
      | .ok (place, entry) => some (path, place, entry)
      | .error _ => none).mergeSort fun a b => !(b.1 < a.1)
    let known := if s.isReversed then known.reverse else known
    let isListed (e : Text × Text × Entry) : Bool := e.2.2.isDirectory && !o.has 'd'
    let files := known.filter fun e => !isListed e
    let directories := (known.filter isListed).flatMap fun (path, place, _) =>
      if s.isRecursive then s.below c.files 64 path place else [(path, place)]
    let titled := 1 < operands.length || s.isRecursive
    let shownFiles := s.joinNames (files.map fun (path, _, entry) => s.name path entry)
    let sections := directories.map fun (path, place) =>
      (if titled then path ++ ":\n" else []) ++ s.directory c.files place
    let out := (['\n'] : Text).intercalate ((if files.isEmpty then [] else [shownFiles]) ++ sections)
    let inner := directories.flatMap fun (path, place) =>
      (s.faults c.files place).flatMap fun (name, e) =>
        c.message ("cannot access " ++ Call.quoteAlways (FileTree.child (dropSlashes path) name) ++ ": " ++
          e.text)
    Reply.ofTexts out (errors ++ inner) (if !errors.isEmpty then 2 else if inner.isEmpty then 0 else 1)) 2

def which (c : Call) : Reply :=
  c.withOptions [flag 'a', flag 's'] fun o =>
    let directories := ((c.bindings.get? "PATH").getD []).splitOn ':'
    let find (name : Text) : List Text :=
      let candidates := if name.contains '/' then [name]
        else directories.map fun d => (if d.isEmpty then ['.'] else d) ++ '/' :: name
      candidates.filter fun path => match c.files.find? c.directory path with
        | some (_, entry) => entry.isExecutable && !entry.isDirectory
        | none => false
    let found := o.operands.map find
    { printed := [(1, asLines (found.flatMap fun ps => if o.has 'a' then ps else ps.take 1))]
      status := if found.isEmpty || found.any List.isEmpty then 1 else 0 }

def stat (c : Call) : Reply :=
  c.withOptions [valued 'c' "format", flag 'L', flag 't'] fun o =>
    if o.operands.isEmpty then c.misused "missing operand"
    else
      let found := o.operands.map fun path => (path, c.files.locate (o.has 'L') c.directory path)
      let value (path place : Text) (entry : Entry) (letter : Char) : Text :=
        let size := match entry with
          | .file content _ => content.length
          | .directory => 4096
          | .link target => target.length
          | _ => 0
        if letter = 'n' then path
        else if letter = 'h' then Text.ofNat (c.files.placesOf place).length
        else if letter = 'N' then
          match entry with
          | .link target => Call.quoteAlways path ++ " -> ".toList ++ Call.quoteAlways target
          | _ => Call.quoteAlways path
        else if letter = 's' then Text.ofNat size
        else if letter = 'F' then
          match entry with
          | .directory => "directory"
          | .file content _ => if content.isEmpty then "regular empty file" else "regular file"
          | .device _ => "character special file"
          | .program _ => "regular file"
          | .link _ => "symbolic link"
        else if letter = 'a' then
          (if entry.isLink then "777" else if entry.isExecutable then "755" else "644")
        else if letter = 'U' || letter = 'G' then "root"
        else if letter = 'u' || letter = 'g' then ['0']
        else if letter = '%' then ['%']
        else ['?']
      let form := (o.value? 'c').getD "%n"
      { printed := found.map fun (path, r) => match r with
          | .error e =>
            (2, c.message ("cannot statx " ++ Call.quoteAlways path ++ ": " ++ e.text))
          | .ok (place, entry) =>
            let pieces := form.splitOn '%'
            (1, pieces.headD [] ++ (pieces.drop 1).flatMap (fun p =>
              value path place entry (p.headD '%') ++ p.drop 1) ++ ['\n'])
        status := if found.all (·.2.toBool) then 0 else 1 }

end Tool
end TypedCommand
