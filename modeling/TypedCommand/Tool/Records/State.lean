import TypedCommand.Tool.Call
import TypedCommand.Tool.Records.Reader

/-!
Values, arrays and records while a script runs. What comes from outside is a text that
counts as a number if it looks like one. A record and its fields are kept together: a change
of one shows in the others.
-/

namespace TypedCommand

namespace Tool

namespace Records

/-- The value of a variable, of a field or of an item of an array. -/
inductive Value
  | unset
  | number (x : Binary64)
  | text (t : Text)
  /-- A text from outside. -/
  | given (t : Text)

def numberIn (t : Text) : Binary64 := (Shell.Format.readFloating t).value

def looksNumeric (t : Text) : Bool :=
  let body := Text.trimEnd Shell.Format.isSpace t
  let r := Shell.Format.readFloating body
  !body.isEmpty && r.rest.isEmpty

namespace Value

def toNumber : Value → Binary64
  | unset => Binary64.zero false
  | number x => x
  | text t => numberIn t
  | given t => numberIn t

def isNumeric : Value → Bool
  | unset => true
  | number _ => true
  | text _ => false
  | given t => looksNumeric t

def isTrue : Value → Bool
  | unset => false
  | number x => !x.isZero
  | text t => !t.isEmpty
  | given t => if looksNumeric t then !(numberIn t).isZero else !t.isEmpty

def ofBool (b : Bool) : Value := number (Binary64.ofNat (if b then 1 else 0))

def ofNat (n : Nat) : Value := number (Binary64.ofNat n)

def ofInt (n : Int) : Value := number (Binary64.ofInt n)

end Value

def wholePart (x : Binary64) : Int :=
  if x.isFinite then max (-0x8000000000000000) (min x.truncated 0x7FFFFFFFFFFFFFFF)
  else if x.isNaN || x.negative then -0x8000000000000000
  else 0x7FFFFFFFFFFFFFFF

def naturalPart (x : Binary64) : Nat :=
  if x.isFinite && !x.negative then min x.truncated.natAbs 0xFFFFFFFFFFFFFFFF
  else (wholePart x % 0x10000000000000000).toNat

/-- One directive of a format, with its value as a number and as a text; nothing if its letter
has no meaning. -/
def directive? (d : Shell.Format.Directive) (letter : Char) (v : Value) (shown : Text) : Option Text :=
  let x := v.toNumber
  match letter with
  | 'd' | 'i' => some (if x.isFinite then d.integer (wholePart x) else d.floating 'f' x false)
  | 'u' => some (d.natural 10 false (naturalPart x))
  | 'o' => some (d.natural 8 false (naturalPart x))
  | 'x' => some (d.natural 16 false (naturalPart x))
  | 'X' => some (d.natural 16 true (naturalPart x))
  | 'c' => some (d.pad (if v.isNumeric then [Shell.Format.byte (wholePart x % 256).toNat]
      else [shown.headD (Char.ofNat 0)]))
  | 's' => some (d.chars shown)
  | 'e' | 'E' | 'f' | 'F' | 'g' | 'G' | 'a' | 'A' => some (d.floating letter x false)
  | _ => none

def numberText (format : Text) (x : Binary64) : Text :=
  let fractional : Text :=
    let (d, rest) := Shell.Format.readFlags (format.dropWhile (· != '%') |>.drop 1)
    let width := rest.takeWhile Char.isDigit
    let rest := rest.drop width.length
    let precision := match rest with
      | '.' :: more => some (more.takeWhile Char.isDigit)
      | _ => none
    let letter := (rest.drop ((precision.map (·.length + 1)).getD 0)).headD 'g'
    let d := { d with
      width := Text.digitsValue width
      precision := precision.map Text.digitsValue }
    (directive? d letter (.number x) []).getD []
  if x.isNaN || x.isInfinite then
    (if x.negative then ['-'] else []) ++ (if x.isNaN then "nan" else "inf").toList
  else if x.isIntegral then
    let n := x.truncated
    if -0x8000000000000000 ≤ n ∧ n ≤ 0x10000000000000000 then Text.ofInt (min n 0xFFFFFFFFFFFFFFFF)
    else fractional
  else fractional

/-- An array. Its keys are whole numbers until one of them is used as a text. -/
structure Table where
  hasTexts : Bool := false
  entries : List (Text × Value) := []

namespace Table

def width : Nat := 64

def place (key : Text) : Nat :=
  key.foldl (fun h c => ((h ^^^ c.toNat) * 16777619) % 0x100000000) 2166136261 % width

/-- The same array with texts for its keys: the numbers are taken up by their remainders. -/
def withTexts (t : Table) : Table :=
  if t.hasTexts then t
  else
    let remainder (key : Text) : Nat :=
      ((Text.splitSign key).2.foldl (fun n c => 10 * n + (c.toNat - 48)) 0) % width
    let ordered := (List.range width).flatMap fun r => t.entries.filter fun e => remainder e.1 == r
    { hasTexts := true, entries := ordered.reverse }

def keys (t : Table) : List Text :=
  let t := t.withTexts
  (List.range width).flatMap fun r => (t.entries.filter fun e => place e.1 == r).map Prod.fst

/-- A key is used: as a whole number, if it is one, or as a text, which puts it in front. -/
def touch (isWhole : Bool) (key : Text) (t : Table) : Table :=
  if isWhole && !t.hasTexts then t
  else
    let t := t.withTexts
    match t.entries.lookup key with
    | some v => { t with entries := (key, v) :: t.entries.filter (·.1 != key) }
    | none => t

def get? (key : Text) (t : Table) : Option Value := t.entries.lookup key

def put (key : Text) (v : Value) (t : Table) : Table :=
  if (t.get? key).isSome then
    { t with entries := t.entries.map fun e => if e.1 == key then (key, v) else e }
  else { t with entries := (key, v) :: t.entries }

def erase (key : Text) (t : Table) : Table := { t with entries := t.entries.filter (·.1 != key) }

def ofList (ts : List Value) : Table :=
  { entries := ((List.range ts.length).zip ts).reverse.map fun (i, v) => (Text.ofNat (i + 1), v) }

end Table

/-- What a name inside a function stands for: a value, and an array that is the one of the
caller or a new one. -/
structure Slot where
  value : Value
  array : Text

structure State where
  files : FileTree := {}
  directory : Text := ['/']
  globals : SortedMap Value := SortedMap.empty
  arrays : SortedMap Table := SortedMap.empty
  frame : List (Text × Slot) := []
  /-- How many arrays have been made for functions. -/
  made : Nat := 0
  record : Text := []
  fields : List Value := []
  /-- The number of the argument that is read next. -/
  argument : Nat := 1
  /-- What remains of the file that is being read. -/
  source : Option Text := none
  hasReadFile : Bool := false
  input : Text := []
  /-- What has been printed and not been shown, the last of it first. -/
  pending : List (Nat × Text) := []
  pendingLength : Nat := 0
  /-- Whether the input goes on behind what can be read so far. -/
  inputIsCut : Bool := false
  /-- Whether the records come from the input. -/
  readsInput : Bool := false
  /-- The files that are written. -/
  written : List Text := []
  /-- What commands are to read, by their texts. -/
  piped : List (Text × Text) := []
  /-- What remains of other files and of what commands print. -/
  opened : List (Text × Text) := []
  /-- The rules for stretches of records that have begun. -/
  active : List Nat := []
  status : Nat := 0
  seed : Value := .unset

inductive Stop
  | next
  | nextFile
  | exit
  | give (v : Value)
  | stopLoop
  | nextTurn
  /-- A failure, with what is said of it. -/
  | failed (said : Text)

/-- What is done while a script runs: it ends with a result, or early, and in between it shows
texts and starts programs. -/
def Act (α : Type) : Type :=
  State → (State → α → Procedure) → (State → Stop → Procedure) → Procedure

namespace Act

instance : Monad Act where
  pure a := fun s done _ => done s a
  bind act next := fun s done stop => act s (fun s a => next a s done stop) stop

instance : MonadStateOf State Act where
  get := fun s done _ => done s s
  set s := fun _ done _ => done s ()
  modifyGet f := fun s done _ =>
    let (a, s) := f s
    done s a

instance : MonadExceptOf Stop Act where
  throw e := fun s _ stop => stop s e
  tryCatch act handle := fun s done stop => act s done fun s e => handle e s done stop

def step (f : Procedure → Procedure) : Act Unit := fun s done _ => f (done s ())

def flush : Act Unit := fun s done _ =>
  let after (_ : Unit) : Procedure := done { s with pending := [], pendingLength := 0 } ()
  s.pending.foldl (fun (next : Unit → Procedure) (descriptor, t) => fun _ => .shows descriptor t next) after ()

def await : Act Unit := do
  if (← get).inputIsCut then
    flush
    fun s done _ => .waits (done s ())

def start (words : List Text) : Act Nat := do
  flush
  fun s done _ => .starts words fun status => .looks fun files => done { s with files } status

def feed (words : List Text) (input : Text) : Act Nat :=
  fun s done _ => .feeds words input fun status => .looks fun files => done { s with files } status

def ask (words : List Text) : Act Text := do
  flush
  fun s done _ => .asks words fun shown _ => .looks fun files => done { s with files } shown

def global (name : String) : Act Value := do
  return ((← get).globals.get? name.toList).getD .unset

def setGlobal (name : String) (v : Value) : Act Unit :=
  modify fun s => { s with globals := s.globals.insert name.toList v }

def textBy (form : String) : Value → Act Text
  | .unset => return []
  | .text t => return t
  | .given t => return t
  | .number x => do
    match ← global form with
    | .text t => return numberText t x
    | .given t => return numberText t x
    | _ => return numberText "%.6g" x

def textOf (v : Value) : Act Text := textBy "CONVFMT" v

def failWith {α : Type} (said : Text) : Act α := do
  let shown (name : String) : Act Text := do textOf (← global name)
  throw (.failed ("run time error: ".toList ++ said ++ "\n\tFILENAME=\"".toList ++ (← shown "FILENAME") ++
    "\" FNR=".toList ++ (← shown "FNR") ++ " NR=".toList ++ (← shown "NR")))

def partsAround (t : Text) (position : Nat) : List Regex.Match → List Text
  | [] => [t.drop position]
  | m :: rest => (t.drop position).take (m.first - position) :: partsAround t m.last rest

/-- What stands between separators. One character separates by itself, a space stands for
blanks, and a longer separator is a regular expression; in paragraphs line breaks separate
as well. -/
def splitBy (separator : Text) (isParagraph : Bool) (t : Text) : List Text :=
  if t.isEmpty then []
  else match separator with
    | [' '] => Text.runs (fun c => !(c == ' ' || c == '\t' || c == '\n')) t
    | [] => t.map fun c => [c]
    | [c] => (t.splitOn c).flatMap fun part => if isParagraph then part.splitOn '\n' else [part]
    | _ =>
      match regexOf (if isParagraph then '(' :: separator ++ ")|\n".toList else separator) with
      | .error _ => [t]
      | .ok r => partsAround t 0 ((Regex.matchesIn { text := t } r).filter fun m => m.first < m.last)

def setRecord (t : Text) : Act Unit := do
  let separator ← textOf (← global "FS")
  let isParagraph := (← textOf (← global "RS")).isEmpty
  modify fun s => { s with
    record := t
    fields := (splitBy separator isParagraph t).map .given }

def setFields (fields : List Value) : Act Unit := do
  let between ← textOf (← global "OFS")
  let parts ← fields.mapM textOf
  modify fun s => { s with
    record := between.intercalate parts
    fields }

def indexOf (v : Value) : Act Nat := do
  let n := wholePart v.toNumber
  if n < 0 then failWith ("negative field index $" ++ Text.ofInt n) else return n.toNat

def field (n : Nat) : Act Value := do
  if n = 0 then return .given (← get).record
  else return ((← get).fields[n - 1]?).getD .unset

def setField (n : Nat) (v : Value) : Act Unit := do
  if n = 0 then setRecord (← textOf v)
  else
    let fields := (← get).fields
    setFields ((fields ++ List.replicate (n - fields.length) (Value.text [])).set (n - 1) v)

def resize (v : Value) : Act Unit := do
  let n := wholePart v.toNumber
  if n < 0 then failWith "negative value assigned to NF"
  else
    let fields := (← get).fields
    setFields (fields.take n.toNat ++ List.replicate (n.toNat - fields.length) (.text []))

def value (name : Text) : Act Value := do
  let s ← get
  match s.frame.lookup name with
  | some slot => return slot.value
  | none =>
    if name = "NF".toList then return .ofNat s.fields.length
    else return (s.globals.get? name).getD .unset

def setValue (name : Text) (v : Value) : Act Unit := do
  let s ← get
  if (s.frame.lookup name).isSome then
    let put (e : Text × Slot) : Text × Slot :=
      if e.1 = name then (name, { e.2 with value := v }) else e
    set { s with frame := s.frame.map put }
  else if name = "NF".toList then resize v
  else set { s with globals := s.globals.insert name v }

def arrayOf (name : Text) : Act Text := do
  return (((← get).frame.lookup name).map (·.array)).getD name

def table (array : Text) : Act Table := do return ((← get).arrays.get? array).getD {}

def setTable (array : Text) (t : Table) : Act Unit :=
  modify fun s => { s with arrays := s.arrays.insert array t }

def keyOf (values : List Value) : Act (Bool × Text) := do
  match values with
  | [.number x] => return (x.isIntegral, ← textOf (.number x))
  | [v] => return (false, ← textOf v)
  | _ => return (false, (← textOf (← global "SUBSEP")).intercalate (← values.mapM textOf))

def item (array : Text) (values : List Value) : Act Value := do
  let (isWhole, key) ← keyOf values
  let t := (← table array).touch isWhole key
  match t.get? key with
  | some v =>
    setTable array t
    return v
  | none =>
    setTable array (t.put key .unset)
    return .unset

def setItem (array : Text) (values : List Value) (v : Value) : Act Unit := do
  let (isWhole, key) ← keyOf values
  setTable array (((← table array).touch isWhole key).put key v)

def takeRecord (separator t : Text) : Option (Text × Text) :=
  match separator with
  | [] =>
    let body := t.dropWhile (· == '\n')
    if body.isEmpty then none
    else
      let lines := body.splitOn '\n'
      let kept := lines.takeWhile fun l => !l.isEmpty
      let t := ['\n'].intercalate kept
      some (t, (body.drop t.length).dropWhile (· == '\n'))
  | [c] =>
    if t.isEmpty then none
    else
      let t' := t.takeWhile (· != c)
      some (t', t.drop (t'.length + 1))
  | _ =>
    if t.isEmpty then none
    else match (regexOf separator).toOption.bind fun r => Regex.search { text := t } r with
      | some m => some (t.take m.first, t.drop m.last)
      | none => some (if t.getLast? = some '\n' then t.dropLast else t, [])

def count (name : String) : Act Unit := do
  setGlobal name (.number ((← global name).toNumber.sum (Binary64.ofNat 1)))

def assignment? (t : Text) : Option (Text × Text) :=
  let name := t.takeWhile Text.isIdentifierChar
  match t.drop name.length with
  | '=' :: shown => if name.head?.any Char.isDigit || name.isEmpty then none else some (name, shown)
  | _ => none

def assign (name shown : Text) : Act Unit := setValue name (.given (unescaped (shown.length + 1) shown))

/-- Opens the next file among the arguments, so many at most; says whether there is one. The
input is read if no argument names a file. -/
def openNext : Nat → Act Bool
  | 0 => return false
  | n + 1 => do
    let s ← get
    let count := (wholePart (← global "ARGC").toNumber).toNat
    if count ≤ s.argument then
      if s.hasReadFile then return false
      else
        set { s with
          source := some s.input
          input := []
          readsInput := true
          hasReadFile := true }
        setGlobal "FNR" (.ofNat 0)
        return true
    else
      set { s with argument := s.argument + 1 }
      let shown ← textOf (((← table "ARGV").get? (Text.ofNat s.argument)).getD .unset)
      if shown.isEmpty then openNext n
      else match assignment? shown with
        | some (name, value) =>
          assign name value
          openNext n
        | none =>
          let content ← if shown = ['-'] || shown = "/dev/stdin".toList then pure (.ok s.input)
            else pure (s.files.read s.directory shown)
          match content with
          | .ok t =>
            modify fun s => { s with
              source := some t
              readsInput := shown = ['-'] || shown = "/dev/stdin".toList
              hasReadFile := true }
            setGlobal "FILENAME" (.text shown)
            setGlobal "FNR" (.ofNat 0)
            return true
          | .error fault =>
            throw (.failed ("cannot open \"".toList ++ shown ++ "\" (".toList ++ fault.text ++ [')']))

def nextRecord : Nat → Act (Option Text)
  | 0 => return none
  | n + 1 => do
    let taken ← match (← get).source with
      | some t => pure (takeRecord (← textOf (← global "RS")) t)
      | none => pure none
    -- A record that nothing follows may not be a whole one.
    if (taken.map (·.2)).getD [] matches [] then
      if (← get).readsInput then await
    match taken with
    | some (t, rest) =>
      modify fun s => { s with source := some rest }
      count "NR"
      count "FNR"
      return some t
    | none =>
      modify fun s => { s with source := none }
      if ← openNext 1000 then nextRecord n else return none

end Act

end Records
end Tool
end TypedCommand
