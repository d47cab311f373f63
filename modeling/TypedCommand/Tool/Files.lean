import TypedCommand.Tool.Paths

/-!
Programs that change files and directories. Each works through its operands in order and
goes on behind those that it cannot do anything with.
-/

namespace TypedCommand

namespace Tool

/-- How far a program has come: the files so far, what it has printed, and whether anything
has failed. -/
structure Work where
  files : FileTree
  /-- The lines that questions will be answered with. -/
  answers : List Text := []
  printed : List (Nat × Text) := []
  failed : Bool := false

namespace Work

def say (w : Work) (t : Text) : Work := { w with printed := w.printed ++ [(1, t ++ ['\n'])] }

def complain (w : Work) (c : Call) (t : Text) : Work :=
  { w with printed := w.printed ++ [(2, c.message t)], failed := true }

def ask (w : Work) (c : Call) (question : Text) : Work × Bool :=
  ({ w with
      printed := w.printed ++ [(2, c.name ++ ": " ++ question ++ "? ")]
      answers := w.answers.drop 1 },
    ((w.answers.headD []).head?).any fun a => a == 'y' || a == 'Y')

def begin (c : Call) (asks : Bool) : Work :=
  { files := c.files, answers := if asks then linesOf c.input else [] }

def reply (w : Work) : Reply :=
  { printed := w.printed, status := if w.failed then 1 else 0, files := some w.files }

end Work

def eachOperand (c : Call) (o : Options) (missing : Text) (step : Work → Text → Work) : Reply :=
  if o.operands.isEmpty then c.misused missing
  else (o.operands.foldl step { files := c.files }).reply

def frontsOf (path : Text) : List Text :=
  let names := FileTree.names path
  (List.range names.length).map fun n =>
    (if path.head? = some '/' then ['/'] else []) ++ List.intercalate ['/'] (names.take (n + 1))

def mkdir (c : Call) : Reply :=
  let forms := [flag 'p' "parents", flag 'v' "verbose", valued 'm' "mode"]
  c.withOptions forms fun o =>
    let make (w : Work) (path shown : Text) (mayExist : Bool) : Work :=
      match w.files.makeDirectory c.directory path with
      | .ok files =>
        let w := { w with files }
        if o.has 'v' then
          w.say (c.name ++ ": created directory " ++ Call.quoteAlways (dropSlashes path))
        else w
      | .error e =>
        if mayExist && e = .present && w.files.isDirectory c.directory path then w
        else w.complain c ("cannot create directory " ++ Call.quoteAlways shown ++ ": " ++ e.text)
    eachOperand c o "missing operand" fun w path =>
      if o.has 'p' then
        (frontsOf path).foldl (fun (w : Work) front =>
          if w.failed then w else make w front front true) { w with failed := false }
          |> fun w' => { w' with failed := w.failed || w'.failed }
      else make w path path false

def leadsThroughLink (t : FileTree) (directory path : Text) : Bool :=
  FileTree.endsInSlash path && (t.look? directory (dropSlashes path)).any (·.2.isLink)

def rmdir (c : Call) : Reply :=
  c.withOptions [flag 'p' "parents", flag 'v' "verbose", flag 'i' "ignore-fail-on-non-empty"] fun o =>
    let drop (w : Work) (path : Text) : Work :=
      let w := if o.has 'v' then w.say (c.name ++ ": removing directory, " ++ Call.quoteAlways path) else w
      let fault (e : FileFault) : Work :=
        w.complain c ("failed to remove " ++ Call.quoteAlways path ++ ": " ++ e.text)
      match w.files.look c.directory path with
      | .error e => fault e
      | .ok (place, entry) =>
        if !entry.isDirectory || leadsThroughLink w.files c.directory path then fault .notDirectory
        else if FileTree.baseName path = ['.'] then fault .invalid
        else if (w.files.children place).isEmpty then { w with files := w.files.prune place }
        else if o.has 'i' then w
        else fault .notEmpty
    eachOperand c o "missing operand" fun w path =>
      if o.has 'p' then (frontsOf path).reverse.foldl (fun w p => if w.failed then w else drop w p) w
      else drop w path

def depthFirst (t : FileTree) : Nat → Text → Text → List (Text × Text)
  | 0, path, place => [(path, place)]
  | n + 1, path, place =>
    (t.children place).flatMap (fun name =>
      depthFirst t n (FileTree.child path name) (FileTree.child place name)) ++ [(path, place)]

def kindOf (entry : Entry) : Text :=
  match entry with
  | .directory => "directory"
  | .file content _ => if content.isEmpty then "regular empty file" else "regular file"
  | .device _ => "character special file"
  | .program _ => "regular file"
  | .link _ => "symbolic link"

def rm (c : Call) : Reply :=
  let forms := [flag 'r' "recursive", flag 'R', flag 'f' "force", flag 'v' "verbose", flag 'd' "dir",
    flag 'i', flag 'I', flag 'p' "no-preserve-root"]
  c.withOptions forms fun o =>
    let deep := o.has 'r' || o.has 'R'
    let asks := o.lastOf? ['f', 'i', 'I'] = some 'i'
    let drop (w : Work) (path : Text) : Work :=
      let name := FileTree.baseName (dropSlashes path)
      let cannot (e : FileFault) : Work :=
        w.complain c ("cannot remove " ++ Call.quoteAlways path ++ ": " ++ e.text)
      match w.files.look c.directory path with
      | .error e =>
        if leadsThroughLink w.files c.directory path && (deep || e != .missing) then cannot .notDirectory
        else if o.has 'f' && (e = .missing || e = .notDirectory) then w
        else cannot e
      | .ok (place, entry) =>
        if deep && leadsThroughLink w.files c.directory path then
          let files := (w.files.children place).foldl
            (fun (t : FileTree) name => t.prune (FileTree.child place name)) w.files
          if o.has 'f' then { w with files } else { cannot .notDirectory with files }
        else if entry.isDirectory then
          if deep && place = ['/'] && !o.has 'p' then
            (w.complain c "it is dangerous to operate recursively on '/'").complain c
              "use --no-preserve-root to override this failsafe"
          else if deep && (name = ['.'] || name = ['.', '.']) then
            w.complain c ("refusing to remove '.' or '..' directory: skipping " ++ Call.quoteAlways path)
          else if deep then
            let shown := if o.has 'v' then
                (depthFirst w.files 64 (dropSlashes path) place).map fun (p, q) =>
                  (1, (if (w.files.at? q).any (·.isDirectory) then "removed directory ".toList
                    else "removed ".toList) ++ Call.quoteAlways p ++ ['\n'])
              else []
            { w with files := w.files.prune place, printed := w.printed ++ shown }
          else if o.has 'd' then
            if (w.files.children place).isEmpty then { w with files := w.files.prune place }
            else cannot .notEmpty
          else cannot .isDirectory
        else
          let (w, isWanted) := if asks then
              w.ask c ("remove " ++ kindOf entry ++ ' ' :: Call.quoteAlways path) else (w, true)
          if !isWanted then w
          else
            let w := { w with files := w.files.prune place }
            if o.has 'v' then w.say ("removed " ++ Call.quoteAlways path) else w
    if o.operands.isEmpty then
      if o.has 'f' then {} else c.misused "missing operand"
    else if o.lastOf? ['f', 'i', 'I'] = some 'I' && (deep || 3 < o.operands.length) then
      let number : Text := if o.operands.length = 1 then " argument" else " arguments"
      let manner : Text := if deep then " recursively" else []
      let question := "remove ".toList ++ Text.ofNat o.operands.length ++ number ++ manner
      let (w, isWanted) := (Work.begin c true).ask c question
      { (if isWanted then o.operands.foldl drop w else w).reply with readsInput := true }
    else { (o.operands.foldl drop (Work.begin c asks)).reply with readsInput := asks }

def inside (directory name : Text) : Text :=
  if directory.getLast? = some '/' then directory ++ name else directory ++ '/' :: name

/-- The sources and the target of a call that copies or moves, and whether the target is a
directory that they go into. -/
def targetsOf (c : Call) (o : Options) (run : List Text → Text → Bool → Reply) : Reply :=
  match o.value? 't', o.operands with
  | some directory, sources => run sources directory true
  | none, [] => c.misused "missing file operand"
  | none, [a] => c.misused ("missing destination file operand after " ++ Call.quoteAlways a)
  | none, operands =>
    let target := operands.getLast?.getD []
    let sources := operands.dropLast
    match c.files.find c.directory target with
    | .ok (_, .directory) => if o.has 'T' then run sources target false else run sources target true
    | .ok _ =>
      if 1 < sources.length then
        Reply.failed (c.name ++ ": target " ++ Call.quoteAlways target ++ ": Not a directory")
      else run sources target false
    | .error e =>
      if 1 < sources.length then
        Reply.failed (c.name ++ ": target " ++ Call.quoteAlways target ++ ": " ++ e.text)
      else run sources target false

def copyFile (c : Call) (o : Options) (w : Work) (source target : Text) (entry : Entry) : Work :=
  let content := match entry with
    | .file content _ => content
    | _ => []
  let isExecutable := match entry with
    | .file _ x => x
    | _ => false
  let cannot (e : FileFault) : Work :=
    w.complain c ("cannot create regular file " ++ Call.quoteAlways target ++ ": " ++ e.text)
  let said (w : Work) : Work :=
    if o.has 'v' then w.say (Call.quoteAlways source ++ " -> " ++ Call.quoteAlways target) else w
  if (w.files.look? c.directory target).any (·.2.isLink) && (w.files.find? c.directory target).isNone then
    w.complain c ("not writing through dangling symlink " ++ Call.quoteAlways target)
  else match w.files.writable c.directory target with
  | .error .isDirectory =>
    if FileTree.endsInSlash target && !(w.files.isDirectory c.directory target) then cannot .notDirectory
    else w.complain c ("cannot overwrite directory " ++ Call.quoteAlways target ++ " with non-directory")
  | .error e => cannot e
  | .ok (place, before) =>
    let asks := before.isSome && o.lastOf? ['n', 'f', 'i'] = some 'i'
    let (w, isWanted) := if asks then w.ask c ("overwrite " ++ Call.quoteAlways target) else (w, true)
    if before.isSome && o.has 'n' then w
    else if !isWanted then { w with failed := true }
    else
      let files := match before with
        | none => w.files.put place (.file content isExecutable)
        | some _ => w.files.fill place content
      said { w with files }

def copyLink (c : Call) (w : Work) (source target : Text) (entry : Entry) : Work :=
  match w.files.place c.directory target false with
  | .error e =>
    w.complain c ("cannot create symbolic link " ++ Call.quoteAlways target ++ ": " ++ e.text)
  | .ok goal =>
    if (w.files.at? goal).any (·.isDirectory) then
      w.complain c ("cannot overwrite directory " ++ Call.quoteAlways target ++ " with non-directory")
    else if (w.files.look? c.directory source).any (·.1 == goal) then
      w.complain c (Call.quoteAlways source ++ " and " ++ Call.quoteAlways target ++ " are the same file")
    else { w with files := (w.files.prune goal).put goal entry }

def withoutLinks (t : FileTree) (place : Text) : FileTree :=
  t.entries.entries.foldl (fun (t : FileTree) e =>
    if e.1 = place || FileTree.isBelow place e.1 then
      match e.2, t.find ['/'] e.1 with
      | .link _, .ok (_, .file content x) => t.put e.1 (.file content x)
      | _, _ => t
    else t) t

def cp (c : Call) : Reply :=
  let forms := [flag 'r' "recursive", flag 'R', flag 'a' "archive", flag 'v' "verbose", flag 'f' "force",
    flag 'n' "no-clobber", flag 'p', flag 'i' "interactive", flag 'u' "update", flag 'd', flag 'L', flag 'P',
    flag 'H', flag 'T' "no-target-directory", valued 't' "target-directory"]
  c.withOptions forms fun o =>
    let deep := o.has 'r' || o.has 'R' || o.has 'a'
    let follows := match o.lastOf? ['L', 'P', 'd', 'a', 'H'] with
      | some 'L' | some 'H' => true
      | some _ => false
      | none => !deep
    let copied (t : FileTree) (place destination : Text) : FileTree :=
      let t := t.graft place destination
      if o.lastOf? ['L', 'P', 'd', 'a', 'H'] = some 'L' then withoutLinks t destination else t
    targetsOf c o fun sources target isInto =>
      let copy (w : Work) (source : Text) : Work :=
        let final := if isInto then inside target (lastName source) else target
        match w.files.locate follows c.directory source with
        | .error e => w.complain c ("cannot stat " ++ Call.quoteAlways source ++ ": " ++ e.text)
        | .ok (place, entry) =>
          let goal := w.files.find? c.directory final
          if entry.isLink then copyLink c w source final entry
          else if goal.any fun g => (w.files.placesOf place).contains g.1 then
            w.complain c (Call.quoteAlways source ++ " and " ++ Call.quoteAlways final ++ " are the same file")
          else if !entry.isDirectory then copyFile c o w source final entry
          else if !deep then
            w.complain c ("-r not specified; omitting directory " ++ Call.quoteAlways source)
          else match goal, w.files.place c.directory final with
            | some (_, other), .ok destination =>
              if other.isDirectory then { w with files := copied w.files place destination }
              else w.complain c ("cannot overwrite non-directory " ++ Call.quoteAlways final ++
                " with directory " ++ Call.quoteAlways source)
            | none, .ok destination =>
              if FileTree.isBelow place destination then
                w.complain c ("cannot copy a directory, " ++ Call.quoteAlways source ++
                  ", into itself, " ++ Call.quoteAlways final)
              else { w with files := copied w.files place destination }
            | _, .error e =>
              w.complain c ("cannot create directory " ++ Call.quoteAlways final ++ ": " ++ e.text)
      let asks := o.has 'i'
      { (sources.foldl copy (Work.begin c asks)).reply with readsInput := asks }

def mv (c : Call) : Reply :=
  let forms := [flag 'f' "force", flag 'n' "no-clobber", flag 'v' "verbose", flag 'i' "interactive",
    flag 'u' "update", flag 'T' "no-target-directory", valued 't' "target-directory"]
  c.withOptions forms fun o =>
    targetsOf c o fun sources target isInto =>
      let move (w : Work) (source : Text) : Work :=
        let final := if isInto then inside target (lastName source) else target
        let said (w : Work) : Work :=
          if o.has 'v' then
            w.say ("renamed " ++ Call.quoteAlways source ++ " -> " ++ Call.quoteAlways final)
          else w
        match w.files.look c.directory source with
        | .error e => w.complain c ("cannot stat " ++ Call.quoteAlways source ++ ": " ++ e.text)
        | .ok (place, entry) =>
          let cannot (e : FileFault) : Work :=
            w.complain c ("cannot move " ++ Call.quoteAlways source ++ " to " ++
              Call.quoteAlways final ++ ": " ++ e.text)
          match w.files.place c.directory final false with
          | .error e => cannot e
          | .ok goal =>
            let other := w.files.at? goal
            let asks := other.isSome && o.lastOf? ['n', 'f', 'i'] = some 'i' && goal != place
            let (w, isWanted) := if asks then w.ask c ("overwrite " ++ Call.quoteAlways final)
              else (w, true)
            if goal = place then
              w.complain c (Call.quoteAlways source ++ " and " ++ Call.quoteAlways final ++
                " are the same file")
            else if FileTree.endsInSlash final && !entry.isDirectory then cannot .notDirectory
            else if other.isSome && o.has 'n' then w
            else if other.isSome && !isWanted then { w with failed := true }
            else if entry.isDirectory && other.any (fun e => !e.isDirectory) then
              w.complain c ("cannot overwrite non-directory " ++ Call.quoteAlways final ++
                " with directory " ++ Call.quoteAlways source)
            else if !entry.isDirectory && other.any (·.isDirectory) then
              w.complain c ("cannot overwrite directory " ++ Call.quoteAlways final ++ " with non-directory")
            else if FileTree.isBelow place goal then
              w.complain c ("cannot move " ++ Call.quoteAlways source ++ " to a subdirectory of itself, " ++
                Call.quoteAlways final)
            else if other.any (·.isDirectory) && !(w.files.children goal).isEmpty then cannot .notEmpty
            else said { w with files := w.files.move place goal }
      let asks := o.has 'i'
      { (sources.foldl move (Work.begin c asks)).reply with readsInput := asks }

def touch (c : Call) : Reply :=
  let forms := [flag 'c' "no-create", flag 'a', flag 'm', flag 'f', valued 'd' "date", valued 't',
    valued 'r' "reference", flag 'h' "no-dereference"]
  c.withOptions forms fun o =>
    eachOperand c o "missing file operand" fun w path =>
      if (w.files.find? c.directory path).isSome || o.has 'c' then w
      else if o.has 'h' && (w.files.look? c.directory path).isSome then w
      else match w.files.write c.directory path [] with
        | .ok files => { w with files }
        | .error e => w.complain c ("cannot touch " ++ Call.quoteAlways path ++ ": " ++ e.text)

def executableBy? (mode : Text) (before : Bool) : Option Bool :=
  if !mode.isEmpty && mode.all (fun c => '0' ≤ c && c ≤ '7') then
    some (mode.any fun c => c.toNat % 2 = 1)
  else
    let clause (state : Option Bool) (t : Text) : Option Bool :=
      let who := t.takeWhile ("ugoa".toList.contains ·)
      match state, t.drop who.length with
      | some before, op :: letters =>
        if !("+-=".toList.contains op) || !letters.all ("rwxXst".toList.contains ·) then none
        else
          let has := letters.contains 'x'
          some (if op = '+' then before || has else if op = '-' then before && !has else has)
      | _, _ => none
    (mode.splitOn ',').foldl clause (some before)

def chmod (c : Call) : Reply :=
  let words := c.arguments.filter fun w =>
    !(["-R".toList, "-v".toList, "-f".toList, "-c".toList, "--".toList].contains w)
  match words with
  | [] => c.misused "missing operand"
  | [mode] => c.misused ("missing operand after " ++ Call.quoteAlways mode)
  | mode :: paths =>
    if (executableBy? mode false).isNone then c.misused ("invalid mode: " ++ Call.quoteAlways mode)
    else
      let change (w : Work) (path : Text) : Work :=
        match w.files.find c.directory path with
        | .error e =>
          if e = .missing && (w.files.look? c.directory path).isSome then
            w.complain c ("cannot operate on dangling symlink " ++ Call.quoteAlways path)
          else w.complain c ("cannot access " ++ Call.quoteAlways path ++ ": " ++ e.text)
        | .ok (place, .file content before) =>
          { w with files := w.files.change place (.file content ((executableBy? mode before).getD before)) }
        | .ok _ => w
      (paths.foldl change { files := c.files }).reply

def relativePath (directory place : Text) : Text :=
  let ups := FileTree.names directory
  let downs := FileTree.names place
  let common := ((ups.zip downs).takeWhile fun (a, b) => a == b).length
  let steps := List.replicate (ups.length - common) "..".toList ++ downs.drop common
  if steps.isEmpty then ['.'] else ['/'].intercalate steps

def link (c : Call) (o : Options) (w : Work) (source target : Text) : Work :=
  let isSymbolic := o.has 's'
  let kind : Text := if isSymbolic then "symbolic link " else "hard link "
  let arrow : Text := if isSymbolic then " -> " else " => "
  let cannot (e : FileFault) : Work :=
    let isBrief := e = .present || (isSymbolic && e != .nameTooLong && !source.isEmpty)
    let shown := Call.quoteAlways target ++ if isBrief then [] else arrow ++ Call.quoteAlways source
    w.complain c ("failed to create " ++ kind ++ shown ++ ": " ++ e.text)
  let found := w.files.locate (o.has 'L') c.directory source
  match isSymbolic, found with
  | false, .error e => w.complain c ("failed to access " ++ Call.quoteAlways source ++ ": " ++ e.text)
  | _, _ =>
    if !isSymbolic && (found.toOption.any (·.2.isDirectory)) then
      w.complain c (Call.quoteName source ++ ": hard link not allowed for directory")
    else match w.files.place c.directory target false with
    | .error e => cannot e
    | .ok goal =>
      let before := w.files.at? goal
      let isSame := found.toOption.any (·.1 == goal)
      if before.isSome && !o.has 'f' then cannot .present
      else if before.any (·.isDirectory) then
        w.complain c (Call.quoteAlways target ++ ": cannot overwrite directory")
      else if isSame then
        w.complain c (Call.quoteAlways source ++ " and " ++ Call.quoteAlways target ++ " are the same file")
      else if isSymbolic && source.isEmpty then cannot .missing
      else if !(w.files.at? (FileTree.parent goal)).any (·.isDirectory) then cannot .missing
      else
        let value := if o.has 'r' then
            relativePath (FileTree.parent goal)
              ((placeOf c .nothing source).toOption.getD (FileTree.along c.directory source))
          else source
        let files := w.files.prune goal
        let files := if isSymbolic then files.put goal (.link value)
          else match found with
            | .ok (place, _) => files.share place goal
            | .error _ => files
        let w := { w with files }
        if o.has 'v' then w.say (Call.quoteAlways target ++ arrow ++ Call.quoteAlways value) else w

def ln (c : Call) : Reply :=
  let forms := [flag 's' "symbolic", flag 'f' "force", flag 'v' "verbose", flag 'n' "no-dereference",
    flag 'r' "relative", flag 'T' "no-target-directory", flag 'L' "logical", flag 'P' "physical",
    valued 't' "target-directory", flag 'i' "interactive"]
  c.withOptions forms fun o =>
    let isInto (target : Text) : Bool := !o.has 'T' && c.files.isDirectory c.directory target &&
      !(o.has 'n' && (c.files.look? c.directory target).any (·.2.isLink))
    let each (sources : List Text) (directory : Text) : Reply :=
      (sources.foldl (fun w source => link c o w source (inside directory (lastName source)))
        { files := c.files }).reply
    match o.value? 't', o.operands with
    | some directory, sources => each sources directory
    | none, [] => c.misused "missing file operand"
    | none, [source] =>
      if o.has 'T' then c.misused ("missing destination file operand after " ++ Call.quoteAlways source)
      else (link c o { files := c.files } source (inside ['.'] (lastName source))).reply
    | none, [source, target] =>
      if isInto target then each [source] target else (link c o { files := c.files } source target).reply
    | none, operands =>
      let target := operands.getLast?.getD []
      match c.files.find c.directory target with
      | .ok (_, .directory) => each operands.dropLast target
      | .ok _ => Reply.failed (c.name ++ ": target " ++ Call.quoteAlways target ++ ": Not a directory")
      | .error e => Reply.failed (c.name ++ ": target " ++ Call.quoteAlways target ++ ": " ++ e.text)

def unlink (c : Call) : Reply :=
  c.withOptions [] fun o =>
    match o.operands with
    | [] => c.misused "missing operand"
    | [path] =>
      match c.files.look c.directory path with
      | .error e => Reply.failed (c.name ++ ": cannot unlink " ++ Call.quoteAlways path ++ ": " ++ e.text)
      | .ok (place, entry) =>
        if entry.isDirectory then
          Reply.failed (c.name ++ ": cannot unlink " ++ Call.quoteAlways path ++ ": Is a directory")
        else { files := some (c.files.prune place) }
    | _ :: extra :: _ => c.misused ("extra operand " ++ Call.quoteAlways extra)

def truncate (c : Call) : Reply :=
  c.withOptions [valued 's' "size", flag 'c' "no-create"] fun o =>
    match (o.value? 's').bind natural? with
    | none => c.misused "you must specify either '--size' or '--reference'"
    | some size => eachOperand c o "missing file operand" fun w path =>
        let before := (w.files.read c.directory path).toOption.getD []
        match w.files.write c.directory path
            (before.take size ++ List.replicate (size - before.length) (Char.ofNat 0)) with
        | .ok files => { w with files }
        | .error e => w.complain c ("cannot open " ++ Call.quoteAlways path ++ " for writing: " ++ e.text)

end Tool
end TypedCommand
