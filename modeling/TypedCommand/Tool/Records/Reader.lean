import TypedCommand.Tool.Records.Term
import TypedCommand.Tool.Records.Token

/-!
Scripts for records, read. Terms are read level by level, from the operators that bind
loosely to those that bind tightly; each level reads the one below it.
-/

namespace TypedCommand

namespace Tool

namespace Records

/-- What is read so far: the tokens that remain, and the line of the last one passed. -/
structure Reading where
  rest : List PlacedToken
  line : Nat := 1

abbrev Parse := StateT Reading (Except Fault)

structure Around where
  /-- Whether a greater-than sign sends what is printed elsewhere. -/
  isPrinted : Bool := false
  /-- Whether a name with `in` behind it begins a loop. -/
  isLoopHead : Bool := false
  isInLoop : Bool := false
  isInFunction : Bool := false
  /-- Whether the rule is for the beginning or the end. -/
  isAtEdge : Bool := false

namespace Parse

def fault {α : Type} (said : Text) : Parse α := do throw ⟨(← get).line, said⟩

def peek : Parse (Option Token) := do return (← get).rest.head?.map (·.token)

def skip : Parse Unit := modify fun s => match s.rest with
  | t :: rest => { rest, line := t.line }
  | [] => s

def unexpected {α : Type} : Parse α := do
  match ← peek with
  | some t =>
    skip
    fault ("syntax error at or near ".toList ++ t.shown)
  | none => fault "syntax error at or near end of line"

def isAt (mark : String) : Parse Bool := do
  match ← peek with
  | some (.mark m) => return m == mark.toList
  | _ => return false

def isAtWord (word : String) : Parse Bool := do
  match ← peek with
  | some (.word w) => return w == word.toList
  | _ => return false

def passes (mark : String) : Parse Bool := do
  let found ← isAt mark
  if found then skip
  return found

def expect (mark : String) : Parse Unit := do unless ← passes mark do unexpected

def skipNewlines : Nat → Parse Unit
  | 0 => return ()
  | n + 1 => do
    match ← peek with
    | some .newline =>
      skip
      skipNewlines n
    | _ => return ()

def newlines : Parse Unit := do skipNewlines (← get).rest.length

def skipBreaks : Nat → Parse Unit
  | 0 => return ()
  | n + 1 => do
    match ← peek with
    | some .newline =>
      skip
      skipBreaks n
    | some (.mark [';']) =>
      skip
      skipBreaks n
    | _ => return ()

def breaks : Parse Unit := do skipBreaks (← get).rest.length

def close : Parse Unit := do
  unless ← passes ")" do
    match ← peek with
    | some (.mark ['\x7d']) => fault "missing ) near \x7d"
    | _ => unexpected

end Parse

open Parse

/-- What is read of a set in brackets: its members, and the marks that need a place of
their own among them. -/
structure SetBody where
  members : Text := []
  hasBracket : Bool := false
  hasDash : Bool := false

/-- A set in the common notation: a bracket is a member if it comes first, a dash if it
comes last. -/
def SetBody.text (b : SetBody) (isNegated : Bool) : Text :=
  '[' :: (if isNegated then ['^'] else []) ++ (if b.hasBracket then [']'] else []) ++ b.members ++
    (if b.hasDash then ['-'] else []) ++ [']']

/-- The members of a set up to the closing bracket, with the characters behind backslashes as
they are, and what follows; the next character is the first or stands in the name of a class,
or neither. -/
def takeSet : Bool → Bool → Text → SetBody × Text
  | _, _, [] => ({}, [])
  | _, true, ':' :: ']' :: rest =>
    let (b, after) := takeSet false false rest
    ({ b with members := ':' :: ']' :: b.members }, after)
  | _, false, '\\' :: c :: rest =>
    let (b, rest) := takeSet false false rest
    if c = ']' then ({ b with hasBracket := true }, rest)
    else if c = '-' then ({ b with hasDash := true }, rest)
    else ({ b with members := (Shell.Format.namedEscape? c).getD c :: b.members }, rest)
  | _, false, '[' :: ':' :: rest =>
    let (b, after) := takeSet false true rest
    ({ b with members := '[' :: ':' :: b.members }, after)
  | isFirst, inClass, c :: rest =>
    if c = ']' then
      if isFirst then
        let (b, rest) := takeSet false false rest
        ({ b with hasBracket := true }, rest)
      else ({}, rest)
    else
      let (b, rest) := takeSet false inClass rest
      ({ b with members := c :: b.members }, rest)

/-- A regular expression in the common notation, so many characters at most: the escapes of
this language are replaced. -/
def commonNotation : Nat → Text → Text
  | 0, t => t
  | _, [] => []
  | n + 1, '\\' :: '\\' :: rest => '\\' :: '\\' :: commonNotation n rest
  | n + 1, '\\' :: c :: rest =>
    match Shell.Format.namedEscape? c with
    | some d => d :: commonNotation n rest
    | none =>
      if c = '/' || c = '"' || c = '&' || c.isAlpha then c :: commonNotation n rest
      else '\\' :: c :: commonNotation n rest
  | n + 1, '[' :: rest =>
    let isNegated := rest.head? == some '^'
    let (set, after) := takeSet true false (if isNegated then rest.drop 1 else rest)
    set.text isNegated ++ commonNotation n after
  | n + 1, c :: rest => c :: commonNotation n rest

def regexOf (source : Text) : Except Text Regex :=
  (Regex.read .extended (commonNotation (source.length + 1) source)).mapError Regex.Fault.text

def listed (part : Parse Term) : Nat → Parse (List Term)
  | 0 => return []
  | n + 1 => do
    let e ← part
    if ← passes "," then
      newlines
      return e :: (← listed part n)
    else return [e]

abbrev TermReader := Around → Parse Term

def arguments (whole : TermReader) : Parse (List Term) := do
  newlines
  if ← passes ")" then return []
  else
    let list ← listed (whole {}) 1000
    newlines
    close
    return list

def isTargetAhead : Parse Bool := do
  match ← peek with
  | some (.name _) => return true
  | some (.mark ['$']) => return true
  | _ => return false

def bracketed (whole : TermReader) : Parse Term := do
  newlines
  let list ← listed (whole {}) 1000
  newlines
  close
  match list with
  | [e] => return e
  | _ =>
    unless ← isAtWord "in" do unexpected
    skip
    match ← peek with
    | some (.name array) =>
      skip
      return .contains list array
    | _ => unexpected

def atom (whole : TermReader) : Nat → Parse Term
  | 0 => unexpected
  | n + 1 => do
    match ← peek with
    | some (.number _ x) =>
      skip
      return .number x
    | some (.text t) =>
      skip
      return .text t
    | some (.regex source) =>
      skip
      match regexOf source with
      | .ok r => return .regex r
      | .error said => fault ("regular expression compile failed (".toList ++ said ++ ")\n".toList ++ source)
    | some (.mark ['(']) =>
      skip
      bracketed whole
    | some (.mark ['$']) =>
      skip
      if ← passes "-" then return .field (.opposite (← atom whole n))
      else return .field (← atom whole n)
    | some (.mark ['-']) =>
      skip
      return .opposite (← atom whole n)
    | some (.mark ['+', '+']) =>
      skip
      return .stepped '+' false (← atom whole n)
    | some (.mark ['-', '-']) =>
      skip
      return .stepped '-' false (← atom whole n)
    | some (.name name) =>
      skip
      if ← passes "[" then
        let keys ← listed (whole {}) 1000
        expect "]"
        return .item name keys
      else return .named name
    | some (.called name) =>
      skip
      skip
      return .call name (← arguments whole)
    | some (.builtin name) =>
      skip
      let (least, most) := (builtins.lookup name).getD (0, 0)
      if ← passes "(" then
        let list ← arguments whole
        if least ≤ list.length && list.length ≤ most then return .builtin name list
        else fault ("wrong number of arguments in call to ".toList ++ name)
      else if name = "length".toList then return .builtin name []
      else unexpected
    | some (.word w) =>
      if w = "getline".toList then
        skip
        let target ← if ← isTargetAhead then some <$> atom whole n else pure none
        if ← passes "<" then return .readsFile target (← atom whole n)
        else return .readsInput target
      else unexpected
    | _ => unexpected

def readings (whole : TermReader) : Nat → Term → Parse Term
  | 0, e => return e
  | n + 1, e => do
    let before ← get
    if ← passes "|" then
      if ← isAtWord "getline" then
        skip
        let target ← if ← isTargetAhead then some <$> atom whole n else pure none
        readings whole n (.readsCommand e target)
      else
        set before
        return e
    else return e

def steppedAfter (whole : TermReader) : Parse Term := do
  let e ← atom whole ((← get).rest.length + 1)
  if e.isTarget then
    if ← passes "++" then return .stepped '+' true e
    else if ← passes "--" then return .stepped '-' true e
    else return e
  else return e

def signed (whole : TermReader) : Nat → Parse Term
  | 0 => unexpected
  | n + 1 => do
    if ← passes "!" then return .negation (← signed whole n)
    else if ← passes "-" then return .opposite (← signed whole n)
    else if ← passes "+" then return .numeric (← signed whole n)
    else
      let e ← steppedAfter whole
      let e ← readings whole (← get).rest.length e
      if ← passes "^" then return .computed '^' e (← signed whole n)
      else return e

def chain (operators : List Char) (part : Parse Term) : Nat → Term → Parse Term
  | 0, e => return e
  | n + 1, e => do
    match ← peek with
    | some (.mark [op]) =>
      if operators.contains op then
        skip
        let b ← part
        chain operators part n (.computed op e b)
      else return e
    | _ => return e

def product (whole : TermReader) : Parse Term := do
  let n := (← get).rest.length + 1
  chain ['*', '/', '%'] (signed whole n) n (← signed whole n)

def sum (whole : TermReader) : Parse Term := do
  chain ['+', '-'] (product whole) ((← get).rest.length + 1) (← product whole)

def Token.beginsOperand : Token → Bool
  | number _ _ => true
  | text _ => true
  | regex _ => true
  | name _ => true
  | called _ => true
  | builtin _ => true
  | mark t => [['('], ['$'], ['!'], ['-'], ['+', '+'], ['-', '-']].contains t
  | _ => false

def joinedTo (whole : TermReader) : Nat → Term → Parse Term
  | 0, e => return e
  | n + 1, e => do
    if (← peek).any Token.beginsOperand then
      let b ← sum whole
      joinedTo whole n (.joined e b)
    else return e

def joint (whole : TermReader) : Parse Term := do
  joinedTo whole (← get).rest.length (← sum whole)

def relationOf? (isPrinted : Bool) (mark : Text) : Option Relation :=
  match String.ofList mark with
  | "<" => some .less
  | "<=" => some .atMost
  | "==" => some .same
  | "!=" => some .other
  | ">=" => some .atLeast
  | ">" => if isPrinted then none else some .greater
  | _ => none

def comparison (whole : TermReader) (around : Around) : Parse Term := do
  let a ← joint whole
  match ← peek with
  | some (.mark m) =>
    match relationOf? around.isPrinted m with
    | some r =>
      skip
      return .compared r a (← joint whole)
    | none => return a
  | _ => return a

def likened (whole : TermReader) (around : Around) : Nat → Term → Parse Term
  | 0, e => return e
  | n + 1, e => do
    if ← passes "~" then likened whole around n (.like true e (← comparison whole around))
    else if ← passes "!~" then likened whole around n (.like false e (← comparison whole around))
    else return e

def sought (around : Around) : Nat → Term → Parse Term
  | 0, e => return e
  | n + 1, e => do
    if !around.isLoopHead && (← isAtWord "in") then
      skip
      match ← peek with
      | some (.name array) =>
        skip
        sought around n (.contains [e] array)
      | _ => unexpected
    else return e

def matching (whole : TermReader) (around : Around) : Parse Term := do
  let n := (← get).rest.length
  sought around n (← likened whole around n (← comparison whole around))

def joined (mark : String) (combine : Term → Term → Term) (part : Parse Term) : Nat → Term → Parse Term
  | 0, e => return e
  | n + 1, e => do
    if ← passes mark then
      newlines
      let b ← part
      joined mark combine part n (combine e b)
    else return e

def conjunction (whole : TermReader) (around : Around) : Parse Term := do
  joined "&&" .both (matching whole around) (← get).rest.length (← matching whole around)

def disjunction (whole : TermReader) (around : Around) : Parse Term := do
  joined "||" .either (conjunction whole around) (← get).rest.length (← conjunction whole around)

def assignment? : Parse (Option (Option Char)) := do
  match ← peek with
  | some (.mark ['=']) => return some none
  | some (.mark [op, '=']) => return if "+-*/%^".toList.contains op then some (some op) else none
  | _ => return none

def term : Nat → TermReader
  | 0, _ => unexpected
  | n + 1, around => do
    let e ← disjunction (term n) around
    if ← passes "?" then
      newlines
      let a ← term n around
      newlines
      expect ":"
      newlines
      return .choice e a (← term n around)
    else if e.isTarget then
      match ← assignment? with
      | some op =>
        skip
        newlines
        return .assigned op e (← term n around)
      | none => return e
    else return e

def readTerm (around : Around) : Parse Term := do term ((← get).rest.length + 1) around

def endsHere : Parse Bool := do
  match ← peek with
  | none => return true
  | some .newline => return true
  | some (.mark m) => return [[';'], ['\x7d']].contains m
  | _ => return false

def endStatement : Parse Unit := do
  match ← peek with
  | some .newline => skip
  | some (.mark [';']) => skip
  | some (.mark ['\x7d']) => return ()
  | none => return ()
  | _ => unexpected

def endsPrinted : Parse Bool := do
  if ← endsHere then return true
  else match ← peek with
    | some (.mark m) => return [['>'], ['>', '>'], ['|']].contains m
    | _ => return false

def printed : Parse (List Term) := do
  let around : Around := { isPrinted := true }
  if ← endsPrinted then return []
  else
    let before ← get
    let plain : Parse (List Term) := do
      set before
      listed (readTerm around) 1000
    if ← passes "(" then
      match (do
        let list ← arguments fun a => readTerm a
        return (list, ← endsPrinted) : Parse (List Term × Bool)).run (← get) with
      | .ok ((list, true), after) =>
        set after
        return list
      | _ => plain
    else plain

def destination? : Parse (Option Destination) := do
  let target : Parse Term := readTerm { isPrinted := true }
  if ← passes ">" then return some (.file (← target))
  else if ← passes ">>" then return some (.extended (← target))
  else if ← passes "|" then return some (.command (← target))
  else return none

def simple (around : Around) : Parse Statement := do
  match ← peek with
  | some (.word w) =>
    match String.ofList w with
    | "print" =>
      skip
      let list ← printed
      return .print false list (← destination?)
    | "printf" =>
      skip
      let list ← printed
      if list.isEmpty then fault "no arguments in call to printf"
      else return .print true list (← destination?)
    | "delete" =>
      skip
      match ← peek with
      | some (.name array) =>
        skip
        if ← passes "[" then
          let keys ← listed (readTerm {}) 1000
          expect "]"
          return .delete array (some keys)
        else return .delete array none
      | _ => unexpected
    | "getline" => return .term (← readTerm around)
    | _ => unexpected
  | _ => return .term (← readTerm around)

def optionalTerm : Parse (Option Term) := do
  if ← endsHere then return none
  else return some (← readTerm {})

def jump? (around : Around) : Parse (Option Statement) := do
  match ← peek with
  | some (.word w) =>
    match String.ofList w with
    | "next" =>
      skip
      if around.isAtEdge then fault "improper use of next" else return some .next
    | "nextfile" =>
      skip
      if around.isAtEdge then fault "improper use of nextfile" else return some .nextFile
    | "break" =>
      skip
      if around.isInLoop then return some .stopLoop else fault "break statement outside of loop"
    | "continue" =>
      skip
      if around.isInLoop then return some .nextTurn else fault "continue statement outside of loop"
    | "exit" =>
      skip
      return some (.exit (← optionalTerm))
    | "return" =>
      skip
      if around.isInFunction then return some (.give (← optionalTerm))
      else fault "return outside function body"
    | _ => return none
  | _ => return none

abbrev StatementReader := Around → Parse Statement

def block (part : StatementReader) (around : Around) : Nat → Parse Statement
  | 0 => return .nothing
  | n + 1 => do
    breaks
    match ← peek with
    | none => throw ⟨(← get).line + 1, "missing \x7d near end of file"⟩
    | some (.mark ['\x7d']) =>
      skip
      return .nothing
    | _ =>
      let s ← part around
      return .sequence s (← block part around n)

def inner (part : StatementReader) (around : Around) : Parse Statement := do
  newlines
  if ← passes ";" then return .nothing else part around

def choice (part : StatementReader) (around : Around) : Parse Statement := do
  expect "("
  let condition ← readTerm {}
  close
  let a ← inner part around
  let before ← get
  breaks
  if ← isAtWord "else" then
    skip
    return .choice condition a (← inner part around)
  else
    set before
    return .choice condition a .nothing

/-- A loop over numbers or over the keys of an array, of which the word has been passed. -/
def counting (part : StatementReader) (around : Around) : Parse Statement := do
  expect "("
  let within := { around with isInLoop := true }
  let before ← get
  let keys : Parse (Option (Text × Text)) := do
    match ((← get).rest.map (·.token) : List Token) with
    | .name name :: .word w :: .name array :: .mark [')'] :: _ =>
      if w = "in".toList then
        modify fun s => { s with rest := s.rest.drop 4 }
        return some (name, array)
      else return none
    | _ => return none
  match ← keys with
  | some (name, array) => return .each name array (← inner part within)
  | none =>
    set before
    let first ← if ← isAt ";" then pure .nothing else simple around
    expect ";"
    newlines
    let condition ← if ← isAt ";" then pure none else some <$> readTerm {}
    expect ";"
    newlines
    let step ← if ← isAt ")" then pure .nothing else simple around
    close
    return .sequence first (.loop false condition step (← inner part within))

def repeating (part : StatementReader) (around : Around) : Parse Statement := do
  let body ← inner part { around with isInLoop := true }
  breaks
  unless ← isAtWord "while" do unexpected
  skip
  expect "("
  let condition ← readTerm {}
  close
  endStatement
  return .loop true (some condition) .nothing body

def statement : Nat → StatementReader
  | 0, _ => unexpected
  | n + 1, around => do
    if ← passes "\x7b" then block (statement n) around ((← get).rest.length + 1)
    else if ← isAtWord "if" then
      skip
      choice (statement n) around
    else if ← isAtWord "while" then
      skip
      expect "("
      let condition ← readTerm {}
      close
      return .loop false (some condition) .nothing (← inner (statement n) { around with isInLoop := true })
    else if ← isAtWord "do" then
      skip
      repeating (statement n) around
    else if ← isAtWord "for" then
      skip
      counting (statement n) around
    else
      let s ← match ← jump? around with
        | some s => pure s
        | none => simple around
      endStatement
      return s

def body (around : Around) : Parse Statement := do
  expect "\x7b"
  let n := (← get).rest.length + 1
  block (statement n) around n

def parameters : Nat → Parse (List Text)
  | 0 => return []
  | n + 1 => do
    newlines
    if ← passes ")" then return []
    else match ← peek with
      | some (.name name) =>
        skip
        newlines
        if ← passes "," then return name :: (← parameters n)
        else
          close
          return [name]
      | _ => unexpected

def selecting : Parse Selector := do
  let first ← readTerm {}
  if ← passes "," then
    newlines
    return .between first (← readTerm {})
  else return .when first

def part (s : Script) : Parse Script := do
  if ← isAtWord "function" then
    skip
    match ← peek with
    | some (.called name) =>
      skip
      skip
      let names ← parameters 1000
      newlines
      let body ← body { isInFunction := true }
      return { s with functions := s.functions ++ [⟨name, names, body⟩] }
    | _ => unexpected
  else
    let edge? ← if ← isAtWord "BEGIN" then pure (some Selector.atFirst)
      else if ← isAtWord "END" then pure (some Selector.atLast)
      else pure none
    match edge? with
    | some selector =>
      skip
      return { s with rules := s.rules ++ [⟨selector, ← body { isAtEdge := true }⟩] }
    | none =>
      let selector ← if ← isAt "\x7b" then pure Selector.all else selecting
      if ← isAt "\x7b" then return { s with rules := s.rules ++ [⟨selector, ← body {}⟩] }
      else return { s with rules := s.rules ++ [⟨selector, .print false [] none⟩] }

def parts : Nat → Script → Parse Script
  | 0, s => return s
  | n + 1, s => do
    breaks
    match ← peek with
    | none => return s
    | some (.mark ['\x7d']) => fault "extra '\x7d'\nawk: line 1: syntax error at or near end of line"
    | some _ => parts n (← part s)

mutual

def Term.calls : Term → List Text
  | .number _ => []
  | .text _ => []
  | .regex _ => []
  | .named _ => []
  | .item _ keys => callsIn keys
  | .field e => e.calls
  | .negation e => e.calls
  | .opposite e => e.calls
  | .numeric e => e.calls
  | .computed _ a b => a.calls ++ b.calls
  | .joined a b => a.calls ++ b.calls
  | .compared _ a b => a.calls ++ b.calls
  | .like _ a b => a.calls ++ b.calls
  | .both a b => a.calls ++ b.calls
  | .either a b => a.calls ++ b.calls
  | .choice c a b => c.calls ++ a.calls ++ b.calls
  | .contains keys _ => callsIn keys
  | .assigned _ a b => a.calls ++ b.calls
  | .stepped _ _ e => e.calls
  | .call name es => name :: callsIn es
  | .builtin _ es => callsIn es
  | .readsInput target => callsMaybe target
  | .readsFile target e => callsMaybe target ++ e.calls
  | .readsCommand e target => e.calls ++ callsMaybe target

def Term.callsIn : List Term → List Text
  | [] => []
  | e :: rest => e.calls ++ callsIn rest

def Term.callsMaybe : Option Term → List Text
  | none => []
  | some e => e.calls

end

def Statement.calls : Statement → List Text
  | term e => e.calls
  | print _ es into => Term.callsIn es ++ match into with
    | some (.file e) => e.calls
    | some (.extended e) => e.calls
    | some (.command e) => e.calls
    | none => []
  | sequence a b => a.calls ++ b.calls
  | choice c a b => c.calls ++ a.calls ++ b.calls
  | loop _ c step body => Term.callsMaybe c ++ step.calls ++ body.calls
  | each _ _ body => body.calls
  | exit e => Term.callsMaybe e
  | give e => Term.callsMaybe e
  | delete _ keys => Term.callsIn (keys.getD [])
  | _ => []

def Selector.calls : Selector → List Text
  | when e => e.calls
  | between a b => a.calls ++ b.calls
  | _ => []

def Script.read (t : Text) : Except Fault Script := do
  let tokens ← takeTokens (t.length + 1) 1 true t
  let (s, last) ← (parts (tokens.length + 1) {}).run { rest := tokens }
  let called := s.rules.flatMap (fun r => r.selector.calls ++ r.body.calls) ++
    s.functions.flatMap (·.body.calls)
  match called.find? fun name => (s.function? name).isNone with
  | some name => throw ⟨last.line + 1, "function " ++ name ++ " never defined"⟩
  | none => return s

end Records
end Tool
end TypedCommand
