import TypedCommand.Shell.Condition
import TypedCommand.Shell.Format
import TypedCommand.Shell.Process
import TypedCommand.Shell.Signal

/-!
The commands that are part of a shell, as far as they run no other commands. Each of them
takes its arguments and gives its status; one that cannot be carried out fails.
-/

namespace TypedCommand

namespace Shell

/-- What a name leads to among the programs, or why to none. -/
inductive Search
  | found (path place : Text) (entry : Entry)
  | failed (fault : FileFault)

namespace Act

/-- Looks for a program: by its path, or by its name in the directories of a search path. -/
def search (path : Option Text) (name : Text) : Act Search := do
  let tree ← files
  let p ← process
  if name.contains '/' then
    return match tree.find p.directory name with
      | .ok (place, entry) =>
        if entry.isExecutable && !entry.isDirectory then .found name place entry
        else .failed .denied
      | .error fault => .failed fault
  else
    let candidates := (path.map (·.splitOn ':')).getD []
    let step (found : Search) (d : Text) : Search :=
      match found with
      | .found path place entry => .found path place entry
      | .failed before =>
        let candidate := if d.isEmpty then name else d ++ '/' :: name
        match tree.find p.directory (if name.isEmpty then d ++ ['/'] else candidate) with
        | .ok (place, entry) =>
          if entry.isExecutable && !entry.isDirectory then .found candidate place entry
          else .failed .denied
        | .error .missing | .error .notDirectory => .failed before
        | .error fault => .failed fault
    return candidates.foldl step (.failed .missing)

def print (command t : Text) : Act Nat := do
  if (← write 1 t).isNone then return 0
  else
    warn (command ++ ": I/O error")
    return 1

def takesArgument (allowed : Text) (letter : Char) : Bool :=
  ((allowed.dropWhile (· != letter)).drop 1).head? == some ':'

/-- The letters in front of the operands of a command, with the arguments of those that a
colon marks, and the operands. -/
def letters (allowed : Text) : List Text → Act (List (Char × Text) × List Text)
  | [] => return ([], [])
  | w :: rest =>
    if w = "--".toList then return ([], rest)
    else match w with
      | '-' :: c :: more =>
        match (c :: more).find? fun d => d == ':' || !allowed.contains d with
        | some d => failWith ("Illegal option -" ++ [d])
        | none =>
          let plain := (c :: more).takeWhile fun d => !takesArgument allowed d
          let found := plain.map fun d => (d, ([] : Text))
          match (c :: more).drop plain.length with
          | [] => do
            let (others, operands) ← letters allowed rest
            return (found ++ others, operands)
          | [d] => match rest with
            | [] => failWith ("No arg for -" ++ d :: " option".toList)
            | a :: rest => do
              let (others, operands) ← letters allowed rest
              return (found ++ (d, a) :: others, operands)
          | d :: a => do
            let (others, operands) ← letters allowed rest
            return (found ++ (d, a) :: others, operands)
      | _ => return ([], w :: rest)

def numberLimit : Nat := 2147483647

def numberOf (t : Text) : Act Nat := do
  if Text.isDigits t && Text.digitsValue t ≤ numberLimit then return Text.digitsValue t
  else failWith ("Illegal number: " ++ t)

def checkName (name : Text) : Act Unit := do
  unless isName name do failWith (name ++ ": bad variable name")

def modifyVariable (name : Text) (f : Variable → Variable) : Act Unit := do
  checkName name
  modifyProcess fun p =>
    { p with bindings := p.bindings.insert name (f ((p.bindings.get? name).getD {})) }

def quotedFrom : Nat → Text → Text
  | 0, _ => []
  | n + 1, t =>
    let plain := t.takeWhile (· != '\'')
    let rest := t.drop plain.length
    let marks := rest.takeWhile (· == '\'')
    let rest := rest.drop marks.length
    Text.inQuotes plain ++ if marks.isEmpty then []
      else '"' :: marks ++ ['"'] ++ if rest.isEmpty then [] else quotedFrom n rest

def quoted (t : Text) : Text := quotedFrom (t.length + 1) t

end Act

namespace Builtin

open Act

/-- The text of `echo`: its words with a blank between them. The common language replaces
escapes and knows one option, the extended one knows options for both. -/
def echo (args : List Text) : Act Nat := do
  let dialect := (← process).dialect
  let isOption (w : Text) : Bool :=
    match w with
    | '-' :: c :: rest =>
      if dialect = .extended then (c :: rest).all ("neE".toList.contains ·) else w == "-n".toList
    | _ => false
  let options := if dialect = .extended then args.takeWhile isOption
    else (args.take 1).takeWhile isOption
  let set := options.flatten
  let escapes := match dialect with
    | .common => true
    | .extended => (set.reverse.find? fun c => c == 'e' || c == 'E') == some 'e'
  let t := [' '].intercalate (args.drop options.length)
  let (shown, ends) := if escapes then Format.unescape dialect (t.length + 1) t else (t, false)
  print "echo" (shown ++ if ends || set.contains 'n' then [] else ['\n'])

def formatComplaint : Format.Complaint → Text × Bool
  | .numberExpected a => (a ++ ": expected numeric value", false)
  | .notConverted a => (a ++ ": not completely converted", false)
  | .outOfRange a => (a ++ ": Numerical result out of range", false)
  | .invalidDirective d => (d ++ ": invalid directive", true)
  | .directiveMissing => ("missing format character", true)

def extendedComplaint : Format.Complaint → Text × Bool
  | .numberExpected a => (a ++ ": invalid number", false)
  | .notConverted a => (a ++ ": invalid number", false)
  | .outOfRange a => (a ++ ": Numerical result out of range", false)
  | .invalidDirective d =>
    (Text.inQuotes (d.reverse.take 1) ++ ": invalid format character", true)
  | .directiveMissing => (Text.inQuotes ['%'] ++ ": missing format character", true)

def printf (args : List Text) : Act Nat := do
  let (_, operands) ← letters [] args
  let dialect := (← process).dialect
  match operands with
  | [] => failWith "usage: printf format [arg ...]"
  | format :: rest =>
    let p := Format.print dialect format rest
    let told := p.complaints.map (if dialect = .extended then extendedComplaint else formatComplaint)
    for (said, _) in told do warn said
    let status ← print "printf" p.out
    return if told.any (·.2) && dialect = .common then 2 else if told.isEmpty then status else 1

def conditionComplaint (dialect : Dialect) : Condition.Complaint → Text
  | .unexpectedOperator w _ =>
    if dialect = .extended then w ++ ": unary operator expected" else w ++ ": unexpected operator"
  | .argumentExpected w =>
    if dialect = .extended then w ++ ": argument expected" else w ++ ": argument expected"
  | .bracketExpected => "closing paren expected"
  | .illegalNumber w =>
    if dialect = .extended then w ++ ": integer expression expected" else "Illegal number: " ++ w

def test (args : List Text) : Act Nat := do
  let p ← process
  -- No other test looks at what is in a file.
  let tree ← if args.contains "-s".toList then files else pure (← world).files
  match Condition.holds (p.dialect == .extended) tree p.directory args with
  | .ok value => return if value then 0 else 1
  | .error complaint =>
    warn (conditionComplaint p.dialect complaint)
    return 2

def bracket (args : List Text) : Act Nat := do
  match args.reverse with
  | [']'] :: others => test others.reverse
  | _ =>
    if (← process).dialect = .extended then
      warn "missing `]'"
      return 2
    else failWith "missing ]"

def assignmentOf (w : Text) : Text × Option Text :=
  let name := w.takeWhile (· != '=')
  match w.drop name.length with
  | _ :: value => (name, some value)
  | [] => (name, none)

def declarations (word : Text) (has : Variable → Bool) : Act Text := do
  return (← process).bindings.entries.flatMap fun (name, v) =>
    if !has v then []
    else word ++ ' ' :: name ++ (match v.value with
      | some t => '=' :: quoted t
      | none => []) ++ ['\n']

def declare (word : Text) (has : Variable → Bool) (give : Bool → Variable → Variable)
    (args : List Text) : Act Nat := do
  let (options, operands) ← letters (if word = "export".toList then "pn" else "p") args
  if operands.isEmpty then print word (← declarations word has)
  else
    for w in operands do
      let (name, value) := assignmentOf w
      checkName name
      if let some t := value then assign name t
      modifyVariable name (give !(options.any (·.1 == 'n')))
    return 0

def exportAll (args : List Text) : Act Nat :=
  declare "export" (·.isExported) (fun b v => { v with isExported := b }) args

def readonly (args : List Text) : Act Nat :=
  declare "readonly" (·.isReadonly) (fun _ v => { v with isReadonly := true }) args

def unset (args : List Text) : Act Nat := do
  let (options, operands) ← letters "vf" args
  for name in operands do
    if options.any (·.1 == 'f') then
      modifyProcess fun p => { p with functions := p.functions.erase name }
    else
      checkName name
      let p ← process
      if (p.bindings.get? name).any (·.isReadonly) then failWith (name ++ ": is read only")
      else if (p.bindings.get? name).isNone && p.dialect = .extended then
        modifyProcess fun p => { p with functions := p.functions.erase name }
      else modifyProcess fun p => { p with bindings := p.bindings.erase name }
  return 0

def shift (args : List Text) : Act Nat := do
  let n ← match args with
    | [] => pure 1
    | a :: _ => numberOf a
  let p ← process
  if p.arguments.length < n then
    if p.dialect = .extended then return 1 else failWith "can't shift that many"
  else
    modifyProcess fun p => { p with arguments := p.arguments.drop n }
    return 0

def localVariables (args : List Text) : Act Nat := do
  match (← process).hidden with
  | [] => failWith "not in a function"
  | _ =>
    for w in args do
      let (name, value) := assignmentOf w
      checkName name
      let p ← process
      match p.hidden with
      | frame :: others =>
        let before := p.bindings.get? name
        let kept := if frame.any (·.1 == name) then frame else (name, before) :: frame
        modifyProcess fun p => { p with hidden := kept :: others }
        if p.dialect = .extended && value.isNone then
          modifyProcess fun p => { p with bindings := p.bindings.insert name {} }
      | [] => return 0
      match value with
      | some t => assign name t
      | none => modifyVariable name id
    return 0

def setNamed (isSet : Bool) (name : Text) : Act Unit := do
  if name = "pipefail".toList && (← process).dialect = .extended then
    modifyProcess fun p => { p with options := { p.options with failsInPipes := isSet } }
  else match Options.names.lookup name with
    | some letter => modifyProcess fun p => { p with options := p.options.put isSet letter }
    | none => failWith ("Illegal option -o " ++ name)

def optionList (asCommands : Bool) : Act Text := do
  let o := (← process).options
  let lines := Options.names.map fun (name, letter) =>
    if asCommands then "set ".toList ++ (if o.has letter then '-' else '+') :: "o ".toList ++ name
    else Text.padEnd 16 name ++ if o.has letter then "on" else "off"
  return (if asCommands then [] else "Current option settings\n") ++ lines.flatMap (· ++ ['\n'])

/-- Sets the options that letters stand for; an `o` takes a name from the words behind. -/
def setLetters (isSet : Bool) : Text → List Text → Act (List Text)
  | [], rest => return rest
  | c :: more, rest => do
    if c = 'o' then
      match rest with
      | [] =>
        let _ ← print "set" (← optionList !isSet)
        setLetters isSet more []
      | name :: rest =>
        setNamed isSet name
        setLetters isSet more rest
    else if (Options.names.map Prod.snd).contains c then
      modifyProcess fun p => { p with options := p.options.put isSet c }
      setLetters isSet more rest
    else failWith ("Illegal option -" ++ [c])

/-- Sets options; what is left are the arguments, if there are any or a dash ends the
options. -/
def setOptions : Nat → List Text → Act (Option (List Text))
  | 0, rest => return some rest
  | _, [] => return none
  | n + 1, w :: rest => do
    if w = "--".toList then return some rest
    else if w = ['-'] then
      modifyProcess fun p => { p with options := (p.options.put false 'x').put false 'v' }
      return if rest.isEmpty then none else some rest
    else match w with
      | '-' :: c :: more => do setOptions n (← setLetters true (c :: more) rest)
      | '+' :: more => do setOptions n (← setLetters false more rest)
      | _ => return some (w :: rest)

def settleOptions : Act Unit := do
  let p ← process
  if p.options.has 'm' && p.dialect = .common then
    modifyProcess fun p => { p with options := p.options.put false 'm' }
    warn "can't access tty; job control turned off"

def set (args : List Text) : Act Nat := do
  if args.isEmpty then
    let shown := (← process).bindings.entries.flatMap fun (name, v) => match v.value with
      | some t => name ++ '=' :: quoted t ++ ['\n']
      | none => []
    print "set" shown
  else
    if let some rest ← setOptions (args.length + 1) args then
      modifyProcess fun p => { p with arguments := rest }
    settleOptions
    return 0

def enter (route place : Text) : Act Unit := do
  let before := (← process).route
  let keep (name value : Text) : Act Unit := do
    assign name value
    modifyVariable name fun v => { v with isExported := true }
  keep "OLDPWD" before
  keep "PWD" route
  modifyProcess fun p => { p with directory := place, route }

def destinations (target : Text) : Act (List (Text × Bool)) := do
  let first := target.takeWhile (· != '/')
  match ← valueOf? "CDPATH" with
  | some t =>
    if first.isEmpty || first = ['.'] || first = ['.', '.'] then return [(target, false)]
    else
      let ways := (t.splitOn ':').map fun d =>
        if d.isEmpty then (target, false)
        else ((if FileTree.endsInSlash d then d ++ target else d ++ '/' :: target), true)
      return ways ++ [(target, false)]
  | none => return [(target, false)]

def asksPlace (options : List (Char × Text)) : Bool := (options.getLast?.map Prod.fst) == some 'P'

def changeDirectory (args : List Text) : Act Nat := do
  let (options, operands) ← letters "LP" args
  let p ← process
  let home := (← valueOf? "HOME").getD []
  let before := (← valueOf? "OLDPWD").getD p.route
  let target := match operands with
    | [] => home
    | w :: _ => if w = ['-'] then before else w
  if target.isEmpty then return 0
  let shows := operands.head? == some ['-']
  let tree ← files
  let isPhysical := asksPlace options
  let found := (← destinations target).filterMap fun (path, shown) =>
    let route := if isPhysical then path else FileTree.along p.route path
    match tree.find? p.directory route with
    | some (place, .directory) => some (if isPhysical then place else route, place, shown)
    | _ => none
  match found with
  | (route, place, shown) :: _ =>
    enter route place
    if shows || shown then print "cd" (route ++ ['\n']) else return 0
  | [] =>
    if p.dialect = .extended then
      let said := match tree.find p.directory target with
        | .error fault => fault.text
        | .ok _ => FileFault.notDirectory.text
      warn (target ++ ": " ++ said)
      return 1
    else failWith ("can't cd to " ++ target)

def pwd (args : List Text) : Act Nat := do
  let (options, _) ← letters "LP" args
  let p ← process
  print "pwd" ((if asksPlace options then p.directory else p.route) ++ ['\n'])

/-- The characters of a line that is read, each with whether a backslash quotes it; whether
the line ends with a line break, and how much of the text it takes. -/
def takeLine (isRaw : Bool) : Text → List (Char × Bool) × Bool × Nat
  | [] => ([], false, 0)
  | '\n' :: _ => ([], true, 1)
  | '\\' :: c :: rest =>
    if isRaw then
      let (line, ends, used) := takeLine isRaw (c :: rest)
      (('\\', false) :: line, ends, used + 1)
    else
      let (line, ends, used) := takeLine isRaw rest
      (if c = '\n' then line else (c, true) :: line, ends, used + 2)
  | c :: rest =>
    let (line, ends, used) := takeLine isRaw rest
    (if c = '\\' && !isRaw then line else (c, false) :: line, ends, used + 1)

/-- The values that variables get from a line: each the next field, the last one all that
remains. -/
def fieldsOf (separators : Text) : Nat → List (Char × Bool) → List Text
  | 0, _ => []
  | n + 1, line =>
    let isSeparator (e : Char × Bool) : Bool := !e.2 && separators.contains e.1
    let isSpace (e : Char × Bool) : Bool :=
      isSeparator e && (e.1 == ' ' || e.1 == '\t' || e.1 == '\n')
    let line := line.dropWhile isSpace
    let field := line.takeWhile (!isSeparator ·)
    let behind := (line.drop field.length).dropWhile isSpace
    let behind := match behind with
      | e :: rest => if isSeparator e then rest.dropWhile isSpace else behind
      | [] => []
    if n = 0 then
      let whole := (line.reverse.dropWhile isSpace).reverse
      [(if behind.isEmpty then field else whole).map Prod.fst]
    else field.map Prod.fst :: fieldsOf separators n behind

def read (args : List Text) : Act Nat := do
  let extended := (← process).dialect = .extended
  let (options, operands) ← letters "p:r" args
  let names ← if !operands.isEmpty then pure operands
    else if extended then pure ["REPLY".toList]
    else failWith "arg count"
  for name in names do checkName name
  let t ← readable 0
  let (line, ends, used) := takeLine (options.any (·.1 == 'r')) t
  unless ends do starve (← cutOf 0)
  advance 0 used
  let separators := (← valueOf? "IFS").getD [' ', '\t', '\n']
  let values := if operands.isEmpty then [line.map Prod.fst]
    else fieldsOf separators names.length line
  for (name, value) in names.zip values do assign name value
  return if ends then 0 else 1

def applyClause (before : Nat) (clause : Text) : Option Nat :=
  let who := clause.takeWhile ("ugoa".toList.contains ·)
  match clause.drop who.length with
  | [] => none
  | op :: what =>
    let groups := [('u', 64), ('g', 8), ('o', 1)].filter fun (c, _) =>
      who.isEmpty || who.contains c || who.contains 'a'
    let one := what.foldl (fun (n : Option Nat) c => n.bind fun n =>
      let bits (m : Nat) : Option Nat := some (n ||| m)
      match c with
      | 'r' => bits 4
      | 'w' => bits 2
      | 'x' => bits 1
      | 'u' => bits (before / 64 % 8)
      | 'g' => bits (before / 8 % 8)
      | 'o' => bits (before % 8)
      | _ => none) (some 0)
    one.bind fun n =>
      let given := groups.foldl (fun m (_, f) => m ||| n * f) 0
      let all := groups.foldl (fun m (_, f) => m ||| 7 * f) 0
      if op = '+' then some (before ||| given)
      else if op = '-' then some (before &&& (511 - given))
      else if op = '=' then some ((before &&& (511 - all)) ||| given)
      else none

def umask (args : List Text) : Act Nat := do
  let (options, operands) ← letters "S" args
  let mask := (← process).mask
  match operands with
  | [] =>
    if options.isEmpty then
      let digits := Nat.toDigits 8 mask
      print "umask" (List.replicate (4 - digits.length) '0' ++ digits ++ ['\n'])
    else
      let group (who : Char) (f : Nat) : Text :=
        let n := 7 - mask / f % 8
        who :: '=' :: (if n / 4 % 2 = 1 then ['r'] else []) ++ (if n / 2 % 2 = 1 then ['w'] else []) ++
          if n % 2 = 1 then ['x'] else []
      print "umask" (group 'u' 64 ++ ',' :: group 'g' 8 ++ ',' :: group 'o' 1 ++ ['\n'])
  | w :: _ =>
    if w.head?.any Char.isDigit then
      if w.all Format.isOctal then
        modifyProcess fun p => { p with mask := Nat.ofDigitChars 8 w 0 % 512 }
        return 0
      else failWith ("Illegal number: " ++ w)
    else
      match (w.splitOn ',').foldlM applyClause (511 - mask) with
      | some n =>
        modifyProcess fun p => { p with mask := 511 - n }
        return 0
      | none => failWith ("Illegal mode: " ++ w)

/-- Where the search for the next option stands: the words that remain, and the letters of
the word at hand that remain. -/
def optionAt (words : List Text) (index offset : Nat) : Option (Nat × Text) :=
  let inside : Text := if offset = 0 || index ≤ 1 then [] else (words.getD (index - 2) []).drop offset
  if !inside.isEmpty then some (index, inside)
  else match words.drop (index - 1) with
    | ('-' :: c :: rest) :: _ => some (index + 1, c :: rest)
    | _ => none

def getopts (args : List Text) : Act Nat := do
  match args with
  | form :: name :: words =>
    let p ← process
    let words := if words.isEmpty then p.arguments else words
    let index := max 1 (((← valueOf? "OPTIND").map Text.digitsValue).getD 1)
    -- Behind the last word the search begins again.
    let isBehind := words.length + 1 < index
    let (index, offset) := if isBehind then (1, 0) else (index, p.optionOffset)
    let isQuiet := form.head? == some ':'
    let settle (index offset : Nat) (letter : Char) (value : Option Text) : Act Unit := do
      match value with
      | some t => assign "OPTARG" t
      | none => modifyProcess fun p => { p with bindings := p.bindings.erase "OPTARG" }
      assign "OPTIND" (Text.ofNat index)
      modifyProcess fun p => { p with optionOffset := offset }
      checkName name
      assign name [letter]
    let ended (index : Nat) : Act Nat := do
      assign "OPTIND" (Text.ofNat index)
      checkName name
      assign name ['?']
      return 1
    match optionAt words index offset with
    | none => ended index
    | some (index, t) =>
      if t = ['-'] && words[index - 2]? = some ['-', '-'] then ended index
      else
        let letter := t.headD '?'
        let rest := t.drop 1
        let offset := if rest.isEmpty then 0 else (words.getD (index - 2) []).length - rest.length
        match (form.dropWhile (· != letter)), letter == ':' with
        | [], _ | _, true =>
          unless isQuiet do err ("Illegal option -".toList ++ [letter, '\n'])
          settle index offset '?' (if isQuiet then some [letter] else none)
        | _ :: ':' :: _, _ =>
          if !rest.isEmpty then settle index 0 letter (some rest)
          else match words[index - 1]? with
            | some value => settle (index + 1) 0 letter (some value)
            | none =>
              unless isQuiet do err ("No arg for -".toList ++ letter :: " option\n".toList)
              settle index 0 (if isQuiet then ':' else '?') (if isQuiet then some [letter] else none)
        | _, _ => settle index offset letter (some [])
        return 0
  | _ => failWith "Usage: getopts optstring var [arg...]"

def signalOf? (word : Text) : Option Nat :=
  Signal.number? (if "SIG".toList.isPrefixOf word then word.drop 3 else word)

def trapList : Act Text := do
  let traps := (← process).traps
  return Signal.names.flatMap fun name => match traps.get? name with
    | some action => "trap -- ".toList ++ quoted action ++ ' ' :: name ++ ['\n']
    | none => []

def trap (args : List Text) : Act Nat := do
  let (_, operands) ← letters [] args
  let give (action : Option Text) (signals : List Text) : Act Nat := do
    for w in signals do
      match signalOf? w with
      | none =>
        err ("trap: ".toList ++ w ++ ": bad trap\n".toList)
        return 1
      | some n =>
        let name := Signal.name n
        modifyProcess fun p => { p with traps := match action with
          | some t => p.traps.insert name t
          | none => p.traps.erase name }
    return 0
  match operands with
  | [] => print "trap" (← trapList)
  | [w] => give none [w]
  | action :: signals =>
    if action = ['-'] then give none signals
    else if Text.isDigits action then give none operands
    else give (some action) signals

def killUsage : Text :=
  "Usage: kill [-s sigspec | -signum | -sigspec] [pid | job]... or\nkill -l [exitstatus]"

def endJob (number signal : Nat) : Act Unit := do
  modify fun s => { s with waiting := s.waiting.filter fun j => j.number != number }
  modifyProcess fun p => { p with jobs := p.jobs.map fun j =>
    if j.number = number then { j with ended := some (256 + signal) } else j }

def jobNamed (w : Option Text) : Act Job := do
  let jobs := (← process).jobs
  let (found, said) : Option Job × Text := match w with
    | none | some ['%'] | some ['%', '%'] | some ['%', '+'] => (jobs.head?, "No current job")
    | some ['%', '-'] => (jobs[1]?, "No previous job")
    | some w =>
      let place := match w with
        | '%' :: t => if Text.isDigits t then some (Text.digitsValue t) else none
        | _ => none
      (place.bind fun n => jobs.find? (·.place == n), "No such job: " ++ w)
  match found with
  | some job => return job
  | none => failWith said

def jobState (j : Job) : Text :=
  match j.ended, j.signal? with
  | none, _ => "Running"
  | _, some signal => Signal.description signal
  | some 0, _ => "Done"
  | some n, _ => "Done(" ++ Text.ofNat n ++ [')']

def jobLine (showsNumber : Bool) (mark : Char) (j : Job) : Text :=
  let shown := '[' :: Text.ofNat j.place ++ ["] ".toList, [mark, ' '],
    if showsNumber then Text.ofNat j.number ++ [' '] else [], jobState j].flatten
  shown ++ List.replicate (max 1 (33 - shown.length)) ' ' ++
    (List.replicate j.followers " | ".toList).flatten ++ ['\n']

def jobs (args : List Text) : Act Nat := do
  let (options, operands) ← letters "lp" args
  let named ← if operands.isEmpty then pure (← process).jobs
    else operands.mapM fun w => jobNamed (some w)
  for job in named do
    let all := (← process).jobs
    let mark := if all.head?.any (·.place == job.place) then '+'
      else if (all[1]?).any (·.place == job.place) then '-' else ' '
    if options.any (·.1 == 'p') then out (Text.ofNat job.number ++ ['\n'])
    else
      out (jobLine (options.any (·.1 == 'l')) mark job)
      if job.ended.isSome then
        modifyProcess fun p => { p with jobs := p.jobs.filter (·.place != job.place) }
  return 0

def send (signal : Nat) (target : Text) : Act Nat := do
  if !Text.isDigits target then
    if target.head? = some '%' then
      -- A job has no group of processes of its own that the signal could be sent to.
      let _ ← jobNamed (some target)
      warn "No such process\n"
      return 1
    else failWith ("Illegal number: " ++ target)
  else
    let number := Text.digitsValue target
    let p ← process
    -- The shell itself has the number of those that it has split off.
    let traps? := match p.lineage.reverse.lookup number with
      | some traps => some traps
      | none => if number = p.number then some p.traps else none
    if let some traps := traps? then
      match traps.get? (Signal.name signal) with
      | some action =>
        unless action.isEmpty do
          modifyWorld fun w => { w with signals := w.signals ++ [(number, Signal.name signal)] }
        return 0
      | none => if Signal.isIgnored signal then return 0 else throw (.killed number signal)
    else if (← get).waiting.any (·.number == number) then
      unless Signal.isIgnored signal do endJob number signal
      return 0
    else
      warn "No such process\n"
      return 1

def sendAll (signal : Nat) : List Text → Act Nat
  | [] => return 0
  | [w] => send signal w
  | w :: rest => do
    let status ← send signal w
    let others ← sendAll signal rest
    return if status = 0 then others else status

def kill (args : List Text) : Act Nat := do
  match args with
  | [] => failWith killUsage
  | w :: rest =>
    if w = "-l".toList then
      match rest with
      | [] => print "kill" (("0".toList :: (List.range 64).map fun n => Signal.name (n + 1)).flatMap
          (· ++ ['\n']))
      | n :: _ =>
        let n ← numberOf n
        print "kill" (Signal.name (if 128 < n then n - 128 else n) ++ ['\n'])
    else if w = "-s".toList then
      match rest with
      | [] => failWith "No arg for -s option"
      | name :: targets => match Signal.number? name with
        | some n => if targets.isEmpty then failWith killUsage else sendAll n targets
        | none => failWith ("invalid signal number or name: " ++ name)
    else if w = "--".toList then if rest.isEmpty then failWith killUsage else sendAll 15 rest
    else match w with
      | '-' :: c :: more => match signalOf? (c :: more) with
        | some n => if rest.isEmpty then failWith killUsage else sendAll n rest
        | none => failWith ("Illegal option -" ++ [c])
      | _ => sendAll 15 args

def aliases (args : List Text) : Act Nat := do
  let shown (name t : Text) : Text := name ++ '=' :: quoted t ++ ['\n']
  if args.isEmpty then
    print "alias" ((← process).aliases.entries.flatMap fun (name, t) => shown name t)
  else
    let mut status := 0
    for w in args do
      match assignmentOf w with
      | (name, some t) => modifyProcess fun p => { p with aliases := p.aliases.insert name t }
      | (name, none) => match (← process).aliases.get? name with
        | some t => out (shown name t)
        | none =>
          err ("alias: ".toList ++ name ++ " not found\n".toList)
          status := 1
    return status

def dropAliases (args : List Text) : Act Nat := do
  let (options, operands) ← letters ['a'] args
  if !options.isEmpty then modifyProcess fun p => { p with aliases := SortedMap.empty }
  let mut status := 0
  for name in operands do
    if ((← process).aliases.get? name).isSome then
      modifyProcess fun p => { p with aliases := p.aliases.erase name }
    else
      err ("unalias: ".toList ++ name ++ " not found\n".toList)
      status := 1
  return status

def hash (isPart : Text → Bool) (args : List Text) : Act Nat := do
  let (options, operands) ← letters ['r'] args
  if !options.isEmpty then modifyProcess fun p => { p with called := [] }
  let path ← valueOf? "PATH"
  if operands.isEmpty && options.isEmpty then
    for name in (← process).called do
      if let .found shown _ _ ← search path name then out (shown ++ ['\n'])
  let mut status := 0
  for name in operands do
    unless isPart name do
      match ← search path name with
      | .found _ _ _ => modifyProcess fun p => { p with called := name :: p.called.filter (· != name) }
      | _ =>
        warn (name ++ ": not found")
        status := 1
  return status

def times (_ : List Text) : Act Nat :=
  let line : Text := "0m0.000000s 0m0.000000s\n"
  print "times" (line ++ line)

def ulimit (args : List Text) : Act Nat := do
  let (_, operands) ← letters "HSatfdscmlpnvwre" args
  if operands.all Text.isDigits then
    if operands.isEmpty then print "ulimit" "unlimited\n" else return 0
  else if operands = ["unlimited".toList] then return 0
  else failWith "bad number"

/-- A job that is to be brought to the front or continued, which cannot be done. -/
def continueJob (args : List Text) : Act Nat := do
  let _ ← jobNamed args.head?
  failWith ("job " ++ (args.head?.getD "(null)") ++ " not created under job control")

def table : List (Text × (List Text → Act Nat)) :=
  [("echo", echo), ("printf", printf), ("test", test), ("[", bracket), ("export", exportAll),
    ("readonly", readonly), ("unset", unset), ("shift", shift), ("local", localVariables),
    ("set", set), ("cd", changeDirectory), ("chdir", changeDirectory), ("pwd", pwd),
    ("read", read), ("umask", umask), ("getopts", getopts), ("trap", trap), ("kill", kill),
    ("alias", aliases), ("unalias", dropAliases), ("times", times),
    ("ulimit", ulimit), ("fg", continueJob), ("bg", continueJob), ("jobs", jobs),
    (":", fun _ => return 0), ("true", fun _ => return 0), ("false", fun _ => return 1)].map
      fun (name, run) => (String.toList name, run)

end Builtin

end Shell
end TypedCommand
