import TypedCommand.Regex
import TypedCommand.Shell.Format
import TypedCommand.Tool.Call

/-!
Files found by walking through directories. An expression of tests and actions is worked
out for each of them; an action can start a program, and the expression goes by how that
one ends.
-/

namespace TypedCommand

namespace Tool

namespace Find

/-- A number that something is compared with: it is to be greater, less, or the same. -/
structure Bound where
  order : Ordering
  number : Nat

def Bound.admits (b : Bound) (n : Nat) : Bool := compare n b.number == b.order

/-- A test of a file, or something that is done with it. -/
inductive Test
  | always (value : Bool)
  | name (pattern : Text) (ignoresCase : Bool)
  | path (pattern : Text) (ignoresCase : Bool)
  | regex (pattern : Regex) (ignoresCase : Bool)
  | kind (letters : List Char)
  | targetKind (letters : List Char)
  | target (pattern : Text) (ignoresCase : Bool)
  | linked (bound : Bound)
  | empty
  | executable
  | size (unit : Nat) (bound : Bound)
  | age (bound : Bound)
  | mode (relation : Char) (bits : Nat)
  | same (place : Text)
  | print (ending : Char)
  | format (t : Text)
  | prune
  | quit
  | delete
  | exec (words : List Text) (isInside : Bool)
  | gather (index : Nat) (words : List Text)

/-- Whether a test shows something by itself, so that nothing is shown for all files. -/
def Test.isAction : Test → Bool
  | print _ => true
  | format _ => true
  | quit => true
  | delete => true
  | exec _ _ => true
  | gather _ _ => true
  | _ => false

inductive Expression
  | test (t : Test)
  | negation (e : Expression)
  | both (a b : Expression)
  | either (a b : Expression)
  | each (a b : Expression)

/-- How far the walk goes, and whether a directory comes after what is in it. -/
structure Range where
  least : Nat := 0
  most : Option Nat := none
  isDepthFirst : Bool := false
  /-- Whether links are taken for what they lead to. -/
  follows : Bool := false

inductive Token
  | test (t : Test)
  | mark (word : Text)

structure Source where
  rest : List Text
  range : Range := {}
  gathered : Nat := 0

abbrev Read := StateT Source (Except Text)

def argument (name : Text) : Read Text := do
  let s ← get
  match s.rest with
  | [] => throw ("missing argument to `" ++ name ++ ['\''])
  | w :: rest =>
    set { s with rest }
    return w

def bound? (t : Text) : Option Bound :=
  let (order, digits) : Ordering × Text := match t with
    | '+' :: rest => (.gt, rest)
    | '-' :: rest => (.lt, rest)
    | _ => (.eq, t)
  (natural? digits).map (⟨order, ·⟩)

def ageOf (name : Text) : Read Test := do
  let t ← argument name
  match bound? t with
  | some b => return .age b
  | none => throw ("invalid argument `" ++ t ++ "' to `" ++ name ++ ['\''])

def sizeOf? (t : Text) : Option Test :=
  let units : List (Char × Nat) :=
    [('b', 512), ('c', 1), ('w', 2), ('k', 1024), ('M', 1048576), ('G', 1073741824)]
  match t.getLast?.bind fun l => units.lookup l with
  | some unit => (bound? t.dropLast).map (.size unit)
  | none => (bound? t).map (.size 512)

def kindOf (t : Text) : Except Text (List Char) :=
  let parts := t.splitOn ','
  match parts.find? fun p => p.length ≠ 1 || !"fdlpsbcD".toList.contains (p.headD ' ') with
  | none => .ok parts.flatten
  | some [] => .error ("Last file type in list argument to -type is missing, i.e., list is ending on: ','")
  | some p =>
    if "fdlpsbcD".toList.contains (p.headD ' ') then
      .error "Must separate multiple arguments to -type using: ','"
    else .error ("Unknown argument to -type: " ++ p.take 1)

def bitsOf? (t : Text) : Option Nat :=
  if !t.isEmpty && t.all Shell.Format.isOctal then some (Shell.Arithmetic.valueIn 8 t)
  else
    (t.splitOn ',').foldlM (fun bits clause => do
      let who := clause.takeWhile ("ugoa".toList.contains ·)
      match clause.drop who.length with
      | op :: letters =>
        if !"+=".toList.contains op || !letters.all ("rwx".toList.contains ·) then none
        else
          let digit := (if letters.contains 'r' then 4 else 0) + (if letters.contains 'w' then 2 else 0) +
            (if letters.contains 'x' then 1 else 0)
          let all := who.isEmpty || who.contains 'a'
          let shift (l : Char) (n : Nat) : Nat := if all || who.contains l then digit * n else 0
          return bits ||| (shift 'u' 64 + shift 'g' 8 + shift 'o' 1)
      | [] => none) 0

def commandUpTo (before : List Text) : List Text → Option (List Text × Bool × List Text)
  | [] => none
  | w :: rest =>
    if w = [';'] then some (before, false, rest)
    else if w = ['+'] && before.getLast? = some "\x7b\x7d".toList then some (before.dropLast, true, rest)
    else commandUpTo (before ++ [w]) rest

def execution (name : Text) (isInside : Bool) : Read Test := do
  let s ← get
  match commandUpTo [] s.rest with
  | none => throw ("missing argument to `" ++ name ++ ['\''])
  | some ([], _, _) => throw ("invalid argument `;' to `" ++ name ++ ['\''])
  | some (words, all, rest) =>
    set { s with rest, gathered := s.gathered + 1 }
    return if all then .gather s.gathered words else .exec words isInside

def limit (name : Text) : Read Nat := do
  let t ← argument name
  match natural? t with
  | some n => return n
  | none =>
    throw ("Expected a positive decimal integer argument to " ++ name ++ ", but got " ++ Text.inQuotes t)

def placeOf (c : Call) (path : Text) : Read Text := do
  match c.files.find c.directory path with
  | .ok (place, _) => return place
  | .error fault => throw (Call.quoteAlways path ++ ": " ++ fault.text)

def test (c : Call) (word : Text) : Read Test := do
  match String.ofList word with
  | "-true" => return .always true
  | "-false" => return .always false
  | "-name" => return .name (← argument word) false
  | "-iname" => return .name (← argument word) true
  | "-path" => return .path (← argument word) false
  | "-wholename" => return .path (← argument word) false
  | "-ipath" => return .path (← argument word) true
  | "-iwholename" => return .path (← argument word) true
  | "-regex" | "-iregex" =>
    match Regex.read .basic (← argument word) with
    | .ok r => return .regex r (word == "-iregex".toList)
    | .error e => throw e.text
  | "-regextype" =>
    let _ ← argument word
    return .always true
  | "-type" =>
    match kindOf (← argument word) with
    | .ok letters => return .kind letters
    | .error e => throw e
  | "-xtype" =>
    match kindOf (← argument word) with
    | .ok letters => return .targetKind letters
    | .error e => throw e
  | "-lname" => return .target (← argument word) false
  | "-ilname" => return .target (← argument word) true
  | "-follow" =>
    modify fun s => { s with range := { s.range with follows := true } }
    return .always true
  | "-empty" => return .empty
  | "-executable" => return .executable
  | "-readable" | "-writable" | "-xdev" | "-mount" | "-daystart" | "-noleaf" | "-warn"
  | "-nowarn" | "-ignore_readdir_race" => return .always true
  | "-size" =>
    let t ← argument word
    match sizeOf? t with
    | some t => return t
    | none => throw ("invalid -size type `" ++ t.drop (t.length - 1) ++ ['\''])
  | "-mtime" | "-ctime" | "-atime" | "-mmin" | "-cmin" | "-amin" => ageOf word
  | "-newer" | "-anewer" | "-cnewer" =>
    let _ ← placeOf c (← argument word)
    return .always false
  | "-samefile" => return .same (← placeOf c (← argument word))
  | "-user" | "-group" =>
    let name ← argument word
    if name = "root".toList || name = ['0'] then return .always true
    else throw (Text.inQuotes name ++ " is not the name of " ++
      (if word = "-user".toList then "a known user".toList else "an existing group".toList))
  | "-uid" | "-gid" | "-links" | "-inum" =>
    let t ← argument word
    match bound? t with
    | some b => return if word = "-links".toList then .linked b else .always (b.admits 0)
    | none => throw ("non-numeric argument to " ++ word ++ ": `" ++ t ++ ['\''])
  | "-nouser" | "-nogroup" => return .always false
  | "-perm" =>
    let t ← argument word
    let (relation, bits) : Char × Text := match t with
      | '-' :: rest => ('-', rest)
      | '/' :: rest => ('/', rest)
      | _ => ('=', t)
    match bitsOf? bits with
    | some bits => return .mode relation bits
    | none => throw ("invalid mode " ++ Text.inQuotes t)
  | "-maxdepth" =>
    let n ← limit word
    modify fun s => { s with range := { s.range with most := some n } }
    return .always true
  | "-mindepth" =>
    let n ← limit word
    modify fun s => { s with range := { s.range with least := n } }
    return .always true
  | "-depth" | "-d" =>
    modify fun s => { s with range := { s.range with isDepthFirst := true } }
    return .always true
  | "-delete" =>
    modify fun s => { s with range := { s.range with isDepthFirst := true } }
    return .delete
  | "-print" => return .print '\n'
  | "-print0" => return .print (Char.ofNat 0)
  | "-printf" => return .format (← argument word)
  | "-prune" => return .prune
  | "-quit" => return .quit
  | "-exec" => execution word false
  | "-execdir" => execution word true
  | _ => throw ("unknown predicate `" ++ word ++ ['\''])

def marks : List Text :=
  ["!", "-not", "(", ")", "-a", "-and", "-o", "-or", ","].map String.toList

/-- The tokens of an expression, so many at most; `previous` is the last word read as a test. -/
def tokens (c : Call) : Nat → Text → Read (List Token)
  | 0, _ => return []
  | n + 1, previous => do
    let s ← get
    match s.rest with
    | [] => return []
    | w :: rest =>
      set { s with rest }
      if marks.contains w then return .mark w :: (← tokens c n previous)
      else if w.head? = some '-' && 1 < w.length then
        let t ← test c w
        return .test t :: (← tokens c n w)
      else
        let takesPattern := ["-name", "-iname", "-path", "-ipath", "-wholename", "-regex"].map String.toList
          |>.contains previous
        throw ("paths must precede expression: `" ++ w ++ ['\''] ++
          (if takesPattern then "\nfind: possible unquoted pattern after predicate `".toList ++ previous ++
            "'?".toList else []))

abbrev Parse := List Token → Except Text (Expression × List Token)

def isMark (words : List String) : Token → Bool
  | .mark w => (words.map String.toList).contains w
  | .test _ => false

def misplaced (w : Text) : Text :=
  if w = [')'] then "invalid expression; you have too many ')'"
  else "invalid expression; you have used a binary operator '" ++ w ++ "' with nothing before it."

def primary (whole : Parse) : Nat → Text → Parse
  | 0, _, ts => .ok (.test (.always true), ts)
  | _, before, [] => .error ("expected an expression after " ++ Text.inQuotes before)
  | n + 1, _, t :: rest =>
    match t with
    | .test p => .ok (.test p, rest)
    | .mark w =>
      if isMark ["!", "-not"] t then do
        let (e, rest) ← primary whole n w rest
        return (.negation e, rest)
      else if w = ['('] then
        match rest with
        | [] => .error ("invalid expression; expected to find a ')' but didn't see one. " ++
            "Perhaps you need an extra predicate after '('")
        | .mark [')'] :: _ => .error "invalid expression; empty parentheses are not allowed."
        | _ => do
          let (e, rest) ← whole rest
          match rest with
          | .mark [')'] :: rest => return (e, rest)
          | _ => .error "invalid expression; I was expecting to find a ')' somewhere but did not see one."
      else .error (misplaced w)

def conjunction (whole : Parse) : Nat → Text → Parse
  | 0, before, ts => primary whole 1 before ts
  | n + 1, before, ts => do
    let (a, rest) ← primary whole (ts.length + 1) before ts
    match rest with
    | [] => return (a, rest)
    | t :: more =>
      if isMark ["-a", "-and"] t then
        let word := match t with
          | .mark w => w
          | .test _ => []
        let (b, rest) ← conjunction whole n word more
        return (.both a b, rest)
      else if isMark ["-o", "-or", ",", ")"] t then return (a, rest)
      else
        let (b, rest) ← conjunction whole n [] rest
        return (.both a b, rest)

def joined (words : List String) (combine : Expression → Expression → Expression) (part : Text → Parse) :
    Nat → Text → Parse
  | 0, before, ts => part before ts
  | n + 1, before, ts => do
    let (a, rest) ← part before ts
    match rest with
    | .mark w :: more =>
      if (words.map String.toList).contains w then
        let (b, rest) ← joined words combine part n w more
        return (combine a b, rest)
      else return (a, rest)
    | _ => return (a, rest)

def whole : Nat → Parse
  | 0, ts => .ok (.test (.always true), ts)
  | n + 1, ts =>
    joined [","] .each (joined ["-o", "-or"] .either (conjunction (whole n) ts.length) ts.length)
      ts.length "(" ts

def read (c : Call) (follows : Bool) (words : List Text) : Except Text (Expression × Range) := do
  let (ts, s) ← (tokens c (words.length + 1) []).run { rest := words, range := { follows } }
  let isAction (t : Token) : Bool := match t with
    | .test p => p.isAction
    | .mark _ => false
  if ts.isEmpty then return (.test (.print '\n'), s.range)
  else
    let (e, rest) ← whole (ts.length + 1) ts
    match rest with
    | [] => return (if ts.any isAction then e else .both e (.test (.print '\n')), s.range)
    | _ => .error "you have too many ')'"

/-- A file that the walk has come to: its path as it is shown, its place, how deep it is, and
the path that the walk began at. -/
structure Node where
  path : Text
  place : Text
  depth : Nat
  root : Text
  entry : Entry
  /-- The place of the entry: that of the file, or where a link that is followed leads to. -/
  inner : Text

def Node.at? (t : FileTree) (follows : Bool) (path place : Text) (depth : Nat) (root : Text) : Option Node :=
  (t.at? place).map fun entry =>
    match if follows && entry.isLink then t.find? ['/'] place else none with
    | some (inner, entry) => ⟨path, place, depth, root, entry, inner⟩
    | none => ⟨path, place, depth, root, entry, place⟩

structure State where
  files : FileTree
  status : Nat := 0
  isPruned : Bool := false
  hasQuit : Bool := false
  batches : List (Nat × List Text × List Text) := []

namespace Node

def base (n : Node) : Text :=
  let t := Text.trimEnd (· == '/') n.path
  if t.isEmpty then ['/'] else FileTree.baseName t

def above (n : Node) : Text :=
  let t := Text.trimEnd (· == '/') n.path
  if t.contains '/' then
    match (t.reverse.dropWhile (· != '/')).drop 1 with
    | [] => []
    | rest => rest.reverse
  else ['.']

def below (n : Node) : Text :=
  if n.depth = 0 then [] else (n.path.drop n.root.length).dropWhile (· == '/')

def bytes (n : Node) : Nat :=
  match n.entry with
  | .directory => 4096
  | .file t _ => t.length
  | .link target => target.length
  | _ => 0

def letterOf (entry : Entry) : Char :=
  match entry with
  | .directory => 'd'
  | .device _ => 'c'
  | .link _ => 'l'
  | _ => 'f'

def letter (n : Node) : Char := letterOf n.entry

def targetLetter (t : FileTree) (n : Node) : Char :=
  match t.find ['/'] n.place with
  | .ok (_, entry) => letterOf entry
  | .error _ => 'l'

def target (n : Node) : Text :=
  match n.entry with
  | .link target => target
  | _ => []

def bits (n : Node) : Nat :=
  match n.entry with
  | .file _ false => 0o644
  | .device _ => 0o666
  | .link _ => 0o777
  | _ => 0o755

end Node

def formatted (t : FileTree) (n : Node) : Nat → Text → Text
  | 0, _ => []
  | _, [] => []
  | fuel + 1, '\\' :: rest =>
    let (shown, rest) := Shell.Format.escape .common rest
    shown ++ formatted t n fuel rest
  | fuel + 1, '%' :: l :: rest =>
    let shown : Text := match l with
      | 'p' => n.path
      | 'f' => n.base
      | 'h' => n.above
      | 's' => Text.ofNat n.bytes
      | 'y' => [n.letter]
      | 'Y' => match t.find ['/'] n.place with
        | .ok (_, entry) => [Node.letterOf entry]
        | .error .tooManyLinks => ['L']
        | .error _ => ['N']
      | 'd' => Text.ofNat n.depth
      | 'P' => n.below
      | 'H' => n.root
      | 'm' => Nat.toDigits 8 n.bits
      | 'u' | 'g' => "root"
      | 'U' | 'G' => "0"
      | 'n' => Text.ofNat (t.placesOf n.place).length
      | 'l' => n.target
      | '%' => ['%']
      | _ => ['%', l]
    shown ++ formatted t n fuel rest
  | fuel + 1, c :: rest => c :: formatted t n fuel rest

def isLike (pattern : Text) (ignoresCase : Bool) (t : Text) : Bool :=
  let lower (t : Text) : Text := if ignoresCase then t.map Char.toLower else t
  -- A backslash takes the meaning of the character behind it.
  let marked := (lower pattern).foldl (fun (s : Shell.Pattern × Bool) c =>
    if s.2 then ((c, false) :: s.1, false)
    else if c = '\\' then (s.1, true)
    else ((c, true) :: s.1, false)) ([], false)
  Shell.Pattern.isMatch marked.1.reverse (lower t)

def withPath (path : Text) : Text → Text
  | '\x7b' :: '\x7d' :: rest => path ++ withPath path rest
  | c :: rest => c :: withPath path rest
  | [] => []

abbrev After := Bool → State → Procedure

def Test.run (c : Call) (n : Node) (s : State) (after : After) : Test → Procedure
  | .always value => after value s
  | .name pattern fold => after (isLike pattern fold n.base) s
  | .path pattern fold => after (isLike pattern fold n.path) s
  | .regex r ignoresCase =>
    let subject : Regex.Subject := { text := n.path, ignoresCase }
    let isWhole := (Regex.ends subject r ⟨none, n.path, 0, []⟩).any (·.rest.isEmpty)
    after isWhole s
  | .kind letters => after (letters.contains n.letter) s
  | .targetKind letters => after (letters.contains (n.targetLetter s.files)) s
  | .target pattern fold => after (n.entry.isLink && isLike pattern fold n.target) s
  | .linked bound => after (bound.admits (s.files.placesOf n.place).length) s
  | .empty => after (match n.entry with
      | .directory => (s.files.children n.inner).isEmpty
      | .file t _ => t.isEmpty
      | _ => false) s
  | .executable => after ((s.files.find? ['/'] n.place).any (·.2.isExecutable)) s
  | .size unit bound => after (bound.admits ((n.bytes + unit - 1) / unit)) s
  | .age bound => after (bound.admits 0) s
  | .mode relation bits => after (match relation with
      | '-' => n.bits &&& bits == bits
      | '/' => bits == 0 || n.bits &&& bits != 0
      | _ => n.bits == bits) s
  | .same place => after ((s.files.placesOf place).contains n.inner) s
  | .print ending => .shows 1 (n.path ++ [ending]) fun _ => after true s
  | .format t => .shows 1 (formatted s.files n (t.length + 1) t) fun _ => after true s
  | .prune => after true { s with isPruned := true }
  | .quit => after true { s with hasQuit := true }
  | .delete =>
    if n.path = ['.'] then after true s
    else if n.entry.isDirectory && !(s.files.children n.place).isEmpty then
      .shows 2 (c.message ("cannot delete " ++ Call.quoteAlways n.path ++ ": Directory not empty"))
        fun _ => after false { s with status := 1 }
    else
      .edits (fun t => t.prune n.place) (after true { s with files := s.files.prune n.place })
  | .exec words isInside =>
    let shown := if isInside then (if n.depth = 0 && n.path = ['.'] then "./.".toList else "./".toList ++ n.base)
      else n.path
    .starts (words.map (withPath shown)) fun status => after (status == 0) s
  | .gather index words =>
    let batches := if s.batches.any (·.1 == index) then
        s.batches.map fun b => if b.1 = index then (b.1, b.2.1, b.2.2 ++ [n.path]) else b
      else s.batches ++ [(index, words, [n.path])]
    after true { s with batches }

def Expression.run (c : Call) (n : Node) : Expression → State → After → Procedure
  | .test t, s, after => t.run c n s after
  | .negation e, s, after => e.run c n s fun value s => after (!value) s
  | .both a b, s, after => a.run c n s fun value s =>
    if value && !s.hasQuit then b.run c n s after else after false s
  | .either a b, s, after => a.run c n s fun value s =>
    if value || s.hasQuit then after true s else b.run c n s after
  | .each a b, s, after => a.run c n s fun _ s => if s.hasQuit then after true s else b.run c n s after

def finish (status : Nat) : List (Nat × List Text × List Text) → Procedure
  | [] => .ended status
  | (_, words, paths) :: rest =>
    .starts (words ++ paths) fun ended => finish (if ended = 0 then status else 1) rest

/-- Walks through files, so many at most, and goes on with `next` if nothing has ended the whole
search; one that is marked has been passed on the way down. -/
def walk (c : Call) (e : Expression) (range : Range) (next : State → Procedure) :
    Nat → List (Node × Bool) → State → Procedure
  | 0, _, s => next s
  | _, [], s => next s
  | fuel + 1, (n, isPassed) :: rest, s =>
    let inside : List (Node × Bool) :=
      if n.entry.isDirectory && range.most.all (n.depth < ·) then
        (s.files.children n.inner).filterMap fun name =>
          let path := if n.path.getLast? = some '/' then n.path ++ name else n.path ++ '/' :: name
          (Node.at? s.files range.follows path (FileTree.child n.inner name) (n.depth + 1) n.root).map
            (·, false)
      else []
    if range.isDepthFirst && !isPassed && !inside.isEmpty then
      walk c e range next fuel (inside ++ (n, true) :: rest) s
    else
      let after : After := fun _ s =>
        if s.hasQuit then finish s.status s.batches
        else
          let down := if range.isDepthFirst || s.isPruned then [] else inside
          walk c e range next fuel (down ++ rest) { s with isPruned := false }
      if n.depth < range.least then after true s else e.run c n s after

def beginsExpression (w : Text) : Bool :=
  (w.head? == some '-' && 1 < w.length) || w == ['('] || w == ['!']

end Find

open Find in
def find (c : Call) : Reply :=
  let isManner (w : Text) : Bool :=
    ["-H", "-L", "-P"].map String.toList |>.contains w
  let manner := (c.arguments.takeWhile isManner).getLast?.getD []
  let words := c.arguments.dropWhile isManner
  let paths := words.takeWhile fun w => !beginsExpression w
  match Find.read c (manner = "-L".toList) (words.drop paths.length) with
  | .error said => Reply.failed (c.name ++ ": " ++ said)
  | .ok (e, range) =>
    let starts := if paths.isEmpty then [['.']] else paths
    let begin (path : Text) (next : State → Procedure) (s : State) : Procedure :=
      let follows := range.follows || manner = "-H".toList
      match s.files.look c.directory path with
      | .error fault =>
        .shows 2 (c.message (Call.quoteAlways path ++ ": " ++ fault.text)) fun _ => next { s with status := 1 }
      | .ok (place, entry) =>
        let node := (Node.at? s.files follows path place 0 path).getD ⟨path, place, 0, path, entry, place⟩
        -- A file is come to twice at most: on the way down and on the way up.
        walk c e range next (2 * s.files.entries.entries.length + 2) [(node, false)] s
    { sequel := some {
        procedure := starts.foldr begin (fun s => finish s.status s.batches) { files := c.files }
        naming := Call.quoteAlways } }

end Tool
end TypedCommand
