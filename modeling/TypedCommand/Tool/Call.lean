import TypedCommand.FileTree
import TypedCommand.Number.Integer

/-!
The small programs of the system, as functions. A call is all that such a program can see;
its reply is all that it does: what it prints, the files as it leaves them, its status, and
the programs that it starts in turn. Options stand among the operands in any order.
-/

namespace TypedCommand

namespace Tool

structure Call where
  name : Text
  arguments : List Text
  /-- What can be read from the standard input. -/
  input : Text := []
  /-- Whether the standard input is a file, and not a pipe or nothing. -/
  inputIsFile : Bool := false
  /-- Why the standard input cannot be read, and whether that is because it is closed. -/
  inputFault : Option FileFault := none
  inputIsClosed : Bool := false
  /-- Whether the standard input goes on behind what can be read so far. -/
  inputIsCut : Bool := false
  /-- How much of what is printed has a reader. -/
  room : Option Nat := none
  files : FileTree := {}
  directory : Text := ['/']
  bindings : SortedMap Text := SortedMap.empty

/-- What a program goes on to do: it shows a text, waits for more to be read if there can be
more, lets time pass, changes the files or looks at them, or ends with a status. It can start
another program and go by the status of that one, perhaps ending it when its time is over,
give it something to read, or read what it prints. -/
inductive Procedure
  | ended (status : Nat)
  | shows (descriptor : Nat) (t : Text) (next : Unit → Procedure)
  | waits (next : Procedure)
  | passes (thousandths : Option Nat) (next : Procedure)
  | edits (change : FileTree → FileTree) (next : Procedure)
  | looks (next : FileTree → Procedure)
  | starts (words : List Text) (next : Nat → Procedure)
  | limits (thousandths : Nat) (words : List Text) (next : Option Nat → Procedure)
  | feeds (words : List Text) (input : Text) (next : Nat → Procedure)
  | asks (words : List Text) (next : Text → Nat → Procedure)

/-- What a program does when it has shown what it has to show itself: what it goes on to do,
the variables that it gives to others, and how it names one that cannot be started. -/
structure Sequel where
  procedure : Procedure
  bindings : Option (SortedMap Text) := none
  naming : Text → Text := id

structure Reply where
  /-- What is printed, in order, by descriptor. -/
  printed : List (Nat × Text) := []
  status : Nat := 0
  /-- The files, if they have changed. -/
  files : Option FileTree := none
  readsInput : Bool := false
  /-- Whether the end of the input made no difference. -/
  stopsEarly : Bool := false
  /-- How much of the input is left where it can be read again. -/
  unread : Nat := 0
  sequel : Option Sequel := none

namespace Reply

def ofText (t : Text) : Reply := { printed := [(1, t)] }

def failed (message : Text) (status : Nat := 1) : Reply :=
  { printed := [(2, message ++ ['\n'])], status }

def proceeding (p : Procedure) : Reply := { sequel := some { procedure := p } }

def ofTexts (out err : Text) (status : Nat := 0) : Reply := { printed := [(2, err), (1, out)], status }

end Reply

/-- An option: its letter, its long name, and whether it takes an argument. -/
structure OptionForm where
  letter : Char
  long : Text := []
  takesArgument : Bool := false

def flag (letter : Char) (long : String := "") : OptionForm := ⟨letter, long.toList, false⟩

def valued (letter : Char) (long : String := "") : OptionForm := ⟨letter, long.toList, true⟩

inductive OptionFault
  | unknownLetter (letter : Char)
  | unknownName (word : Text)
  | argumentMissing (letter : Char)
  | nameArgumentMissing (name : Text)
  | argumentNotTaken (name : Text)
  | ambiguous (word : Text) (names : List Text)

def OptionFault.text : OptionFault → Text
  | unknownLetter c => "invalid option -- " ++ Text.inQuotes [c]
  | unknownName w => "unrecognized option " ++ w.inQuotes
  | argumentMissing c => "option requires an argument -- " ++ Text.inQuotes [c]
  | nameArgumentMissing n => "option " ++ Text.inQuotes ("--".toList ++ n) ++ " requires an argument"
  | argumentNotTaken n => "option " ++ Text.inQuotes ("--".toList ++ n) ++ " doesn't allow an argument"
  | ambiguous w names => "option " ++ w.inQuotes ++ " is ambiguous; possibilities:" ++
    names.flatMap fun n => ' ' :: Text.inQuotes ("--".toList ++ n)

/-- The options of a call by their letters, with their arguments, and its operands. -/
structure Options where
  options : List (Char × Text) := []
  operands : List Text := []

namespace Options

def has (o : Options) (c : Char) : Bool := o.options.any (·.1 == c)

def value? (o : Options) (c : Char) : Option Text := (o.options.reverse.lookup c)

def lastOf? (o : Options) (cs : Text) : Option Char :=
  (o.options.reverse.find? fun e => cs.contains e.1).map Prod.fst

def readLetters (forms : List OptionForm) (next : Option Text) :
    Text → Except OptionFault (List (Char × Text) × Bool)
  | [] => .ok ([], false)
  | c :: rest =>
    match forms.find? (·.letter == c) with
    | none => .error (.unknownLetter c)
    | some form =>
      if !form.takesArgument then do
        let (more, taken) ← readLetters forms next rest
        return ((c, []) :: more, taken)
      else if !rest.isEmpty then .ok ([(c, rest)], false)
      else match next with
        | some w => .ok ([(c, w)], true)
        | none => .error (.argumentMissing c)

/-- Reads a long option, which can be cut short as long as it is clear. -/
def readLong (forms : List OptionForm) (next : Option Text) (word : Text) :
    Except OptionFault ((Char × Text) × Bool) :=
  let body := word.drop 2
  let name := body.takeWhile (· != '=')
  let candidates := forms.filter fun f => !f.long.isEmpty && name.isPrefixOf f.long
  match (candidates.find? (·.long == name)).or candidates.head? with
  | none => .error (.unknownName word)
  | some form =>
    if 1 < candidates.length && form.long != name then
      .error (.ambiguous word (candidates.map (·.long)))
    else if name.length < body.length then
      if form.takesArgument then .ok ((form.letter, body.drop (name.length + 1)), false)
      else .error (.argumentNotTaken form.long)
    else if !form.takesArgument then .ok ((form.letter, []), false)
    else match next with
      | some w => .ok ((form.letter, w), true)
      | none => .error (.nameArgumentMissing form.long)

def readFrom (forms : List OptionForm) (mixes : Bool) (o : Options) :
    Nat → List Text → Except OptionFault Options
  | 0, ws => .ok { o with operands := o.operands ++ ws }
  | _, [] => .ok o
  | n + 1, w :: rest =>
    if w = "--".toList then .ok { o with operands := o.operands ++ rest }
    else match w with
      | '-' :: '-' :: _ => do
        let (found, taken) ← readLong forms rest.head? w
        readFrom forms mixes { o with options := o.options ++ [found] } n
          (if taken then rest.drop 1 else rest)
      | '-' :: c :: letters => do
        let (found, taken) ← readLetters forms rest.head? (c :: letters)
        readFrom forms mixes { o with options := o.options ++ found } n
          (if taken then rest.drop 1 else rest)
      | _ =>
        if mixes then readFrom forms mixes { o with operands := o.operands ++ [w] } n rest
        else .ok { o with operands := o.operands ++ w :: rest }

end Options

namespace Call

def message (c : Call) (t : Text) : Text := c.name ++ ": " ++ t ++ ['\n']

def hint (c : Call) : Text :=
  "Try '".toList ++ c.name ++ " --help' for more information.\n".toList

def misused (c : Call) (t : Text) (status : Nat := 1) : Reply :=
  { printed := [(2, c.message t ++ c.hint)], status }

def withOptions (c : Call) (forms : List OptionForm) (run : Options → Reply) (status : Nat := 1)
    (mixes : Bool := true) : Reply :=
  match Options.readFrom forms mixes {} (c.arguments.length + 1) c.arguments with
  | .ok o => run o
  | .error fault => c.misused fault.text status

def isPlain (ch : Char) : Bool := Text.isAlnum ch || "%+,-./:=@_^#~\x7b\x7d".toList.contains ch

def quoteAlways (t : Text) : Text :=
  if t.contains '\'' && !t.any ("\"$`\\".toList.contains ·) then '"' :: t ++ ['"']
  else Text.inQuotes (t.flatMap fun ch => if ch = '\'' then "'\\''".toList else [ch])

def quoteName (t : Text) : Text :=
  if !t.isEmpty && t.all isPlain && !(t.head?.any ("#~".toList.contains ·)) then t
  else quoteAlways t

def content (c : Call) (path : Text) : Except FileFault Text :=
  if path = ['-'] then
    match c.inputFault with
    | none => .ok c.input
    | some fault => .error fault
  else c.files.read c.directory path

def faultText (path : Text) (f : FileFault) : Text := quoteName path ++ ": " ++ f.text

/-- Whether a call reads its input: there is no operand, or one of them is a dash. -/
def usesInput (operands : List Text) : Bool := operands.isEmpty || operands.contains ['-']

/-- The contents of the operands, or of the input without any, each with its name, or what
is wrong with it. -/
def contents (c : Call) (operands : List Text) : List (Text × Except FileFault Text) :=
  (if operands.isEmpty then [['-']] else operands).map fun path => (path, c.content path)

end Call

def splitLines (t : Text) : List Text × Bool :=
  let parts := t.splitOn '\n'
  match parts.getLast? with
  | some [] => (parts.dropLast, false)
  | _ => (parts, !t.isEmpty)

def linesOf (t : Text) : List Text := (splitLines t).1

def asLines (ts : List Text) : Text := ts.flatMap (· ++ ['\n'])

/-- Runs a transformation of the text in all operands together; the ones that cannot be
read are reported. -/
def Call.filter (c : Call) (operands : List Text) (f : Text → Text) : Reply :=
  let parts := c.contents operands
  let errors := parts.flatMap fun (path, r) => match r with
    | .ok _ => []
    | .error e => c.message (Call.faultText path e)
  let text := parts.flatMap fun (_, r) => match r with
    | .ok t => t
    | .error _ => []
  { printed := [(2, errors), (1, f text)]
    status := if errors.isEmpty then 0 else 1
    readsInput := Call.usesInput operands }

def natural? (t : Text) : Option Nat := if Text.isDigits t then some (Text.digitsValue t) else none

end Tool
end TypedCommand
