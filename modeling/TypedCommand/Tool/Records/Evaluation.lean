import TypedCommand.Tool.Records.State

/-!
What terms give and statements do. A target is looked up before a value is put into it, and a
function works on names of its own.
-/

namespace TypedCommand

namespace Tool

namespace Records

inductive Place
  | name (t : Text)
  | item (array : Text) (keys : List Value)
  | field (n : Nat)

namespace Act

def valueAt : Place → Act Value
  | .name t => value t
  | .item array keys => item array keys
  | .field n => field n

def putAt (v : Value) : Place → Act Unit
  | .name t => setValue t v
  | .item array keys => setItem array keys v
  | .field n => setField n v

def regexIn (t : Text) : Act Regex := do
  match regexOf t with
  | .ok r => return r
  | .error said => throw (.failed ("regular expression compile failed (".toList ++ said ++ ")\n".toList ++ t))

/-- A width or a precision at the front of a text: digits, or a star that takes a value. -/
def sizeIn (t : Text) (vs : List Value) : Option (Option Int × Text × List Value) :=
  match t, vs with
  | '*' :: rest, v :: vs => some (some (wholePart v.toNumber), rest, vs)
  | '*' :: _, [] => none
  | t, vs =>
    let digits := t.takeWhile Char.isDigit
    some (if digits.isEmpty then none else some (Text.digitsValue digits), t.drop digits.length, vs)

def precisionIn (t : Text) (vs : List Value) : Option (Option Int × Text × List Value) :=
  match t with
  | '.' :: more => (sizeIn more vs).map fun (p, rest, vs) => (some (p.getD 0), rest, vs)
  | _ => some (none, t, vs)

/-- Texts by a format, so many directives at most; what has been made before a failure is
given with it. -/
def formatted (name format : Text) : Nat → Nat → Text → List Value → Act (Text × Option Text)
  | 0, _, _, _ => return ([], none)
  | _, _, [], _ => return ([], none)
  | n + 1, number, '%' :: '%' :: rest, vs => do
    let (t, fault) ← formatted name format n number rest vs
    return ('%' :: t, fault)
  | n + 1, number, '%' :: rest, vs => do
    let place := name ++ "(\"".toList ++ format ++ "\")".toList
    let missing := "not enough arguments passed to ".toList ++ place
    let (d, rest) := Shell.Format.readFlags rest
    match sizeIn rest vs with
    | none => return ([], some missing)
    | some (width, rest, vs) =>
      match precisionIn rest vs with
      | none => return ([], some missing)
      | some (precision, rest, vs) =>
        let rest := rest.dropWhile fun c => "hlLq".toList.contains c
        let width := width.getD 0
        let d := { d with
          leftAligned := d.leftAligned || width < 0
          width := width.natAbs
          precision := (precision.filter (0 ≤ ·)).map Int.toNat }
        match rest, vs with
        | _, [] => return ([], some missing)
        | [], _ => return ([], some ("improper conversion(number ".toList ++ Text.ofNat number ++ ") in ".toList ++ place))
        | letter :: rest, v :: vs =>
          match directive? d letter v (← textOf v) with
          | none =>
            return ([], some ("improper conversion(number ".toList ++ Text.ofNat number ++ ") in ".toList ++ place))
          | some shown =>
            let (t, fault) ← formatted name format n (number + 1) rest vs
            return (shown ++ t, fault)
  | n + 1, number, c :: rest, vs => do
    let (t, fault) ← formatted name format n number rest vs
    return (c :: t, fault)

def pendingLimit : Nat := 4096

def emit (descriptor : Nat) (t : Text) : Act Unit := do
  modify fun s => { s with
    pending := (descriptor, t) :: s.pending
    pendingLength := s.pendingLength + t.length }
  if pendingLimit ≤ (← get).pendingLength then flush

/-- Writes a text to a file, behind what is there if the file is open or is to be extended. -/
def writeFile (isExtended : Bool) (path t : Text) : Act Unit := do
  let s ← get
  let before := if isExtended || s.written.contains path then (s.files.read s.directory path).toOption.getD []
    else []
  match s.files.write s.directory path (before ++ t) with
  | .error fault =>
    throw (.failed ("cannot open \"".toList ++ path ++ "\" for output (".toList ++ fault.text ++ [')']))
  | .ok files =>
    set { s with
      files
      written := path :: s.written.filter (· != path) }
    step (.edits fun tree => (tree.write s.directory path (before ++ t)).toOption.getD tree)

def writeTo (isExtended : Bool) (path t : Text) : Act Unit :=
  match String.ofList path with
  | "/dev/stdout" | "-" => emit 1 t
  | "/dev/stderr" => emit 2 t
  | _ => writeFile isExtended path t

/-- Gives a text to a command that is to read it. What has been printed is shown before the
command is started. -/
def writePipe (command t : Text) : Act Unit := do
  let piped := (← get).piped
  if piped.any (·.1 == command) then
    let add (e : Text × Text) : Text × Text := if e.1 = command then (command, e.2 ++ t) else e
    modify fun s => { s with piped := piped.map add }
  else
    flush
    modify fun s => { s with piped := piped ++ [(command, t)] }

def commandWords (command : Text) : List Text := ["/bin/sh".toList, "-c".toList, command]

def close (name : Text) : Act Int := do
  let s ← get
  match s.piped.lookup name with
  | some input =>
    set { s with piped := s.piped.filter (·.1 != name) }
    return (← feed (commandWords name) input : Nat)
  | none =>
    set { s with
      opened := s.opened.filter (·.1 != name)
      written := s.written.filter (· != name) }
    return if (s.opened.lookup name).isSome || s.written.contains name then 0 else -1

/-- The next record of another file or of what a command prints; nothing if it cannot be
opened. -/
def recordFrom (isCommand : Bool) (name : Text) : Act (Option (Option Text)) := do
  let s ← get
  let content? ← match s.opened.lookup name with
    | some t => pure (some t)
    | none =>
      if isCommand then some <$> ask (commandWords name)
      else if name = ['-'] || name = "/dev/stdin".toList then
        set { s with input := [] }
        pure (some s.input)
      else pure (s.files.read s.directory name).toOption
  match content? with
  | none => return none
  | some t =>
    match takeRecord (← textOf (← global "RS")) t with
    | none =>
      modify fun s => { s with opened := (name, []) :: s.opened.filter (·.1 != name) }
      return some none
    | some (shown, rest) =>
      modify fun s => { s with opened := (name, rest) :: s.opened.filter (·.1 != name) }
      return some (some shown)

def accept (t : Text) : Option Place → Act Unit
  | none => setRecord t
  | some place => putAt (.given t) place

/-- The values of a match that is kept: where it begins, from one on, and its length. -/
def keepMatch (m : Option Regex.Match) : Act Value := do
  let first := (m.map (·.first + 1)).getD 0
  setGlobal "RSTART" (.ofNat first)
  setGlobal "RLENGTH" (match m with
    | some m => .ofNat (m.last - m.first)
    | none => .ofInt (-1))
  return .ofNat first

def replacement (matched : Text) : Text → Text
  | '\\' :: '\\' :: '&' :: rest => '\\' :: matched ++ replacement matched rest
  | '\\' :: '&' :: rest => '&' :: replacement matched rest
  | '&' :: rest => matched ++ replacement matched rest
  | c :: rest => c :: replacement matched rest
  | [] => []

def replacedFrom (t shown : Text) (position : Nat) : List Regex.Match → Text
  | [] => t.drop position
  | m :: rest =>
    (t.drop position).take (m.first - position) ++ replacement (m.text t) shown ++ replacedFrom t shown m.last rest

def partOf (t : Text) (first : Binary64) (length : Option Binary64) : Text :=
  let first := wholePart first
  let start := (max first 1 - 1).toNat
  match length with
  | none => t.drop start
  | some length => (t.drop start).take (wholePart length - min first 0).toNat

def builtin (name : Text) (vs : List Value) : Act Value := do
  let first := vs.headD .unset
  let number (f : Float → Float) : Value := .number (first.toNumber.approximate f)
  let letters (f : Char → Char) : Act Value := do return .text ((← textOf first).map f)
  match String.ofList name, vs with
  | "length", [] => return .ofNat (← get).record.length
  | "length", _ => return .ofNat (← textOf first).length
  | "substr", _ :: start :: rest =>
    return .text (partOf (← textOf first) start.toNumber (rest.head?.map Value.toNumber))
  | "index", [_, part] =>
    let t ← textOf first
    let part ← textOf part
    return .ofNat (match (List.range (t.length + 1)).find? fun i => part.isPrefixOf (t.drop i) with
      | some i => i + 1
      | none => 0)
  | "sin", _ => return number Float.sin
  | "cos", _ => return number Float.cos
  | "exp", _ => return number Float.exp
  | "log", _ => return number Float.log
  | "sqrt", _ => return number Float.sqrt
  | "atan2", [_, x] => return .number (first.toNumber.approximateBoth Float.atan2 x.toNumber)
  | "int", _ =>
    let x := first.toNumber
    return .number (if x.isFinite then .ofInt x.truncated else x)
  | "rand", _ => return .number (Binary64.nearest false 1 2)
  | "srand", _ =>
    let before := (← get).seed
    modify fun s => { s with seed := first }
    return before
  | "tolower", _ => letters Char.toLower
  | "toupper", _ => letters Char.toUpper
  | "system", _ => return .ofNat (← start (commandWords (← textOf first)))
  | "close", _ => return .ofInt (← close (← textOf first))
  | "fflush", _ =>
    flush
    return .ofNat 0
  | "sprintf", _ =>
    let format ← textOf first
    match ← formatted "sprintf" format (format.length + 1) 1 format (vs.drop 1) with
    | (t, none) => return .text t
    | (_, some said) => failWith said
  | _, _ => return .unset

def order (a b : Value) : Act Ordering := do
  if a.isNumeric && b.isNumeric then return a.toNumber.order b.toNumber
  else
    let s ← textOf a
    let t ← textOf b
    return if s = t then .eq else if s < t then .lt else .gt

def compute (op : Char) (a b : Binary64) : Binary64 :=
  match op with
  | '+' => a.sum b
  | '-' => a.difference b
  | '*' => a.product b
  | '/' => a.quotient b
  | '%' => a.remainder b
  | _ => a.power b

def arrayIn : Term → Act Text
  | .named name => arrayOf name
  | _ => failWith "type error in arg(2) in call to split"

def newArray : Act Text := do
  let n := (← get).made
  modify fun s => { s with made := n + 1 }
  return '#' :: Text.ofNat n

def slots (eval : Term → Act Value) : List Text → List Term → Act (List (Text × Slot))
  | [], _ => return []
  | name :: names, .named given :: rest => do
    let slot : Slot := ⟨← value given, ← arrayOf given⟩
    return (name, slot) :: (← slots eval names rest)
  | name :: names, e :: rest => do
    let slot : Slot := ⟨← eval e, ← newArray⟩
    return (name, slot) :: (← slots eval names rest)
  | name :: names, [] => do
    let slot : Slot := ⟨.unset, ← newArray⟩
    return (name, slot) :: (← slots eval names [])

def turn (act : Act Unit) : Act Bool := do
  try
    act
    return true
  catch
    | .stopLoop => return false
    | .nextTurn => return true
    | e => throw e

def forKeys (array name : Text) (act : Act Unit) : List Text → Act Unit
  | [] => return ()
  | key :: rest => do
    setValue name (.given key)
    if ← turn act then forKeys array name act rest

mutual

def eval (script : Script) : Nat → Term → Act Value
  | 0, _ => throw .exit
  | n + 1, e => do
    match e with
    | .number x => return .number x
    | .text t => return .text t
    | .regex r => return .ofBool (Regex.search { text := (← get).record } r).isSome
    | .named name => value name
    | .item array keys =>
      let vs ← keys.mapM (eval script n)
      item (← arrayOf array) vs
    | .field e => field (← indexOf (← eval script n e))
    | .negation e => return .ofBool !(← eval script n e).isTrue
    | .opposite e => return .number (← eval script n e).toNumber.opposite
    | .numeric e => return .number (← eval script n e).toNumber
    | .computed op a b =>
      let x ← eval script n a
      let y ← eval script n b
      return .number (compute op x.toNumber y.toNumber)
    | .joined a b =>
      let s ← textOf (← eval script n a)
      let t ← textOf (← eval script n b)
      return .text (s ++ t)
    | .compared r a b =>
      let x ← eval script n a
      let y ← eval script n b
      return .ofBool (r.holds (← order x y))
    | .like expected subject pattern =>
      let t ← textOf (← eval script n subject)
      let r ← regexFor script n pattern
      return .ofBool ((Regex.search { text := t } r).isSome == expected)
    | .both a b =>
      if (← eval script n a).isTrue then return .ofBool (← eval script n b).isTrue
      else return .ofBool false
    | .either a b =>
      if (← eval script n a).isTrue then return .ofBool true
      else return .ofBool (← eval script n b).isTrue
    | .choice c a b =>
      if (← eval script n c).isTrue then eval script n a else eval script n b
    | .contains keys array =>
      let vs ← keys.mapM (eval script n)
      let (isWhole, key) ← keyOf vs
      let name ← arrayOf array
      let t := (← table name).touch isWhole key
      setTable name t
      return .ofBool (t.get? key).isSome
    | .assigned none target e =>
      let v ← eval script n e
      putAt v (← placeOf script n target)
      return v
    | .assigned (some op) target e =>
      let v ← eval script n e
      let place ← placeOf script n target
      let v := Value.number (compute op (← valueAt place).toNumber v.toNumber)
      putAt v place
      return v
    | .stepped op givesOld target =>
      let place ← placeOf script n target
      let before := (← valueAt place).toNumber
      let after := compute op before (Binary64.ofNat 1)
      putAt (.number after) place
      return .number (if givesOld then before else after)
    | .call name args =>
      match script.function? name with
      | none => failWith ("function ".toList ++ name ++ " never defined".toList)
      | some f =>
        let frame ← slots (eval script n) f.parameters args
        let before := (← get).frame
        modify fun s => { s with frame }
        let v ← try
            run script n f.body
            pure Value.unset
          catch
            | .give v => pure v
            | e => throw e
        modify fun s => { s with frame := before }
        return v
    | .builtin name args => function script n name args
    | .readsInput target =>
      let place ← target.mapM (placeOf script n)
      match ← nextRecord 1000 with
      | none => return .ofNat 0
      | some t =>
        accept t place
        return .ofNat 1
    | .readsFile target file =>
      let place ← target.mapM (placeOf script n)
      match ← recordFrom false (← textOf (← eval script n file)) with
      | none => return .ofInt (-1)
      | some none => return .ofNat 0
      | some (some t) =>
        accept t place
        return .ofNat 1
    | .readsCommand command target =>
      let name ← textOf (← eval script n command)
      let place ← target.mapM (placeOf script n)
      match ← recordFrom true name with
      | some (some t) =>
        count "NR"
        accept t place
        return .ofNat 1
      | _ => return .ofNat 0

def placeOf (script : Script) : Nat → Term → Act Place
  | 0, _ => throw .exit
  | n + 1, e => do
    match e with
    | .named name => return .name name
    | .item array keys =>
      let vs ← keys.mapM (eval script n)
      return .item (← arrayOf array) vs
    | .field e => return .field (← indexOf (← eval script n e))
    | _ => failWith "assignment to what is no target"

def regexFor (script : Script) : Nat → Term → Act Regex
  | 0, _ => throw .exit
  | n + 1, e => do
    match e with
    | .regex r => return r
    | e => regexIn (← textOf (← eval script n e))

def function (script : Script) : Nat → Text → List Term → Act Value
  | 0, _, _ => throw .exit
  | n + 1, name, args => do
    match String.ofList name, args with
    | "length", [.named array] =>
      let t ← table (← arrayOf array)
      if t.entries.isEmpty then builtin name [← value array] else return .ofNat t.entries.length
    | "split", subject :: array :: rest =>
      let t ← textOf (← eval script n subject)
      let parts ← match rest with
        | [.regex r] => pure (if t.isEmpty then [] else
            partsAround t 0 ((Regex.matchesIn { text := t } r).filter fun m => m.first < m.last))
        | [e] => pure (splitBy (← textOf (← eval script n e)) false t)
        | _ => pure (splitBy (← textOf (← global "FS")) false t)
      setTable (← arrayIn array) (Table.ofList (parts.map .given))
      return .ofNat parts.length
    | "match", [subject, pattern] =>
      let t ← textOf (← eval script n subject)
      keepMatch (Regex.search { text := t } (← regexFor script n pattern))
    | "sub", pattern :: shown :: rest => substitute script n false pattern shown (rest.headD (.field (.text [])))
    | "gsub", pattern :: shown :: rest => substitute script n true pattern shown (rest.headD (.field (.text [])))
    | _, _ => builtin name (← args.mapM (eval script n))

def substitute (script : Script) : Nat → Bool → Term → Term → Term → Act Value
  | 0, _, _, _, _ => throw .exit
  | n + 1, all, pattern, shown, target => do
    let r ← regexFor script n pattern
    let shown ← textOf (← eval script n shown)
    let t ← textOf (← eval script n target)
    let subject : Regex.Subject := { text := t }
    let ms := if all then Regex.matchesIn subject r else (Regex.search subject r).toList
    unless ms.isEmpty do
      if target.isTarget then putAt (.text (replacedFrom t shown 0 ms)) (← placeOf script n target)
    return .ofNat ms.length

def run (script : Script) : Nat → Statement → Act Unit
  | 0, _ => throw .exit
  | n + 1, s => do
    match s with
    | .term e =>
      let _ ← eval script n e
      return ()
    | .print isFormatted args into =>
      let vs ← args.mapM (eval script n)
      let target ← match into with
        | none => pure none
        | some (.file e) => pure (some (writeTo false (← textOf (← eval script n e))))
        | some (.extended e) => pure (some (writeTo true (← textOf (← eval script n e))))
        | some (.command e) => pure (some (writePipe (← textOf (← eval script n e))))
      let send := target.getD (emit 1)
      if isFormatted then
        let format ← textOf (vs.headD .unset)
        let (t, fault) ← formatted "printf" format (format.length + 1) 1 format (vs.drop 1)
        send t
        if let some said := fault then failWith said
      else
        let shown ← if vs.isEmpty then pure [(← get).record] else vs.mapM (textBy "OFMT")
        send ((← textOf (← global "OFS")).intercalate shown ++ (← textOf (← global "ORS")))
    | .sequence a b =>
      run script n a
      run script n b
    | .nothing => return ()
    | .choice c a b =>
      if (← eval script n c).isTrue then run script n a else run script n b
    | .loop isBodyFirst condition step body =>
      let holds ← if isBodyFirst then pure true
        else match condition with
          | some c => pure (← eval script n c).isTrue
          | none => pure true
      if holds then
        if ← turn (run script n body) then
          run script n step
          let again ← if !isBodyFirst then pure true
            else match condition with
              | some c => pure (← eval script n c).isTrue
              | none => pure true
          if again then run script n (.loop isBodyFirst condition step body)
    | .each name array body =>
      let array ← arrayOf array
      let t := (← table array).withTexts
      setTable array t
      forKeys array name (run script n body) t.keys
    | .next => throw .next
    | .nextFile => throw .nextFile
    | .exit status =>
      if let some e := status then
        let v ← eval script n e
        modify fun s => { s with status := (wholePart v.toNumber % 256).toNat }
      throw .exit
    | .give none => throw (.give .unset)
    | .give (some e) => throw (.give (← eval script n e))
    | .stopLoop => throw .stopLoop
    | .nextTurn => throw .nextTurn
    | .delete array none => setTable (← arrayOf array) {}
    | .delete array (some keys) =>
      let vs ← keys.mapM (eval script n)
      let (isWhole, key) ← keyOf vs
      let name ← arrayOf array
      setTable name (((← table name).touch isWhole key).erase key)

end

def stepLimit : Nat := 1000000

/-- Whether a rule is for the record, where `index` is its place among the rules. -/
def selects (script : Script) (index : Nat) : Selector → Act Bool
  | .atFirst => return false
  | .atLast => return false
  | .all => return true
  | .when e => do return (← eval script stepLimit e).isTrue
  | .between first last => do
    let began ← if (← get).active.contains index then pure true
      else pure (← eval script stepLimit first).isTrue
    if began then
      let ends := (← eval script stepLimit last).isTrue
      modify fun s =>
        let others := s.active.filter (· != index)
        { s with active := if ends then others else index :: others }
    return began

def runRules (script : Script) : Nat → List Rule → Act Unit
  | _, [] => return ()
  | index, rule :: rest => do
    if ← selects script index rule.selector then run script stepLimit rule.body
    runRules script (index + 1) rest

def runRecords (script : Script) : Nat → Act Unit
  | 0 => return ()
  | n + 1 => do
    match ← nextRecord 1000 with
    | none => return ()
    | some t =>
      setRecord t
      try runRules script 0 script.rules
      catch
        | .next => pure ()
        | .nextFile => modify fun s => { s with source := none }
        | e => throw e
      runRecords script n

def isForRecords : Selector → Bool
  | .atFirst => false
  | .atLast => false
  | _ => true

def readsRecords (script : Script) : Bool :=
  script.rules.any fun r => match r.selector with
    | .atFirst => false
    | _ => true

def runEdge (script : Script) (isFirst : Bool) : Act Unit :=
  script.rules.forM fun rule => match rule.selector with
    | .atFirst => if isFirst then run script stepLimit rule.body else return ()
    | .atLast => if isFirst then return () else run script stepLimit rule.body
    | _ => return ()

def upToExit (act : Act Unit) : Act Unit := do
  try act
  catch
    | .failed said => throw (.failed said)
    | _ => modify fun s => { s with frame := [] }

def closeAll : List (Text × Text) → Act Unit
  | [] => return ()
  | (command, input) :: rest => do
    let _ ← feed (commandWords command) input
    closeAll rest

def runScript (script : Script) : Act Unit := do
  upToExit do
    runEdge script true
    if readsRecords script then runRecords script stepLimit
  upToExit (runEdge script false)
  closeAll (← get).piped
  flush

end Act

end Records
end Tool
end TypedCommand
