import TypedCommand.Shell.Command
import TypedCommand.SortedMap

/-!
The grammar of command lines. A reader holds the text that remains; a step of the grammar
takes tokens from it and can put the last one back. What stands between the brackets of a
command in a word is read with the same grammar, only to find where it ends.
-/

namespace TypedCommand

namespace Shell

/-- A token of a command line. A redirection is completed by the word behind it. -/
inductive Token
  | endOfText
  | newline
  | operator (text : Text)
  | keyword (text : Text)
  | word (word : Word)
  | redirection (descriptor : Nat) (operator : Text)

def Token.name : Token → Text
  | endOfText => "end of file"
  | newline => "newline"
  | operator t => '"' :: t ++ ['"']
  | keyword t => '"' :: t ++ ['"']
  | word _ => "word"
  | redirection _ _ => "redirection"

def Token.text : Token → Text
  | operator t => t
  | keyword t => t
  | word w => w.plain?.getD []
  | redirection _ t => t
  | newline => "newline"
  | endOfText => []

inductive Problem
  | unexpected (token : Token) (expected : Option Text)
  | quoteNotClosed (mark : Char)
  | parameterNotClosed
  | numberNotClosed
  | backquoteNotClosed
  | badLoopVariable
  | badFunctionName
  | badDescriptor
  | tooDeep

structure ScriptError where
  line : Nat
  problem : Problem

/-- The text that remains to be read, the number of its first line, and the token that was
put back. The lines of a here-document are taken out of the text where the document is
announced, and counted where they stood. -/
structure Reader where
  rest : Text
  /-- No less than the number of characters that remain. -/
  size : Nat := rest.length
  line : Nat := 1
  documentLines : Nat := 0
  pushed : Option Token := none
  /-- Whether the next token is looked for behind line breaks, and may be a keyword. -/
  skipsNewlines : Bool := false
  findsKeywords : Bool := false
  dialect : Dialect := .common
  /-- The texts that short names stand for. -/
  aliases : SortedMap Text := SortedMap.empty
  /-- The short names that have been replaced, each with what remains behind its text. -/
  replaced : List (Text × Nat) := []

abbrev Read := StateT Reader (Except ScriptError)

/-- Passes over a list of commands inside a word, which a bracket closes, or else the end of
the text. -/
abbrev Nested := Bool → Read Unit

namespace Read

def fail {α : Type} (problem : Problem) : Read α := do throw ⟨(← get).line, problem⟩

def skip (n : Nat) : Read Unit := modify fun r => { r with rest := r.rest.drop n }

def dropContinuations : Nat → Text → Text × Nat
  | n, '\\' :: '\n' :: rest => dropContinuations (n + 1) rest
  | n, rest => (rest, n)

def text : Read Text := do
  let r ← get
  let (rest, lines) := dropContinuations 0 r.rest
  set { r with rest, line := r.line + lines }
  return rest

def countLines (t : Text) : Read Unit := modify fun r => { r with line := r.line + t.count '\n' }

/-- Repeats a step until it gives a result; every other turn has to read something. -/
def turns {σ α : Type} (step : σ → Read (σ ⊕ α)) : Nat → σ → Read α
  | 0, _ => fail .tooDeep
  | n + 1, s => do
    match ← step s with
    | .inl s => turns step n s
    | .inr a => return a

def loop {σ α : Type} (s : σ) (step : σ → Read (σ ⊕ α)) : Read α := do
  turns step (2 * (← get).size + 8) s

end Read

/-- Where the parts of a word stand: this decides which characters have a meaning there,
and what the end of the text means. -/
inductive Place
  | plain
  | quoted
  | operand (quoted : Bool)
  | document
  | number (nested : Bool)
deriving DecidableEq

namespace Place

def quotes : Place → Bool
  | plain => false
  | operand q => q
  | _ => true

def delimiters : Text := [' ', '\t', '\n', ';', '&', '|', '<', '>', '(', ')']

def isOrdinary (p : Place) (c : Char) : Bool :=
  !(['\\', '$', '`'].contains c) &&
    match p with
    | plain => !(delimiters.contains c) && c != '\'' && c != '"'
    | quoted => c != '"'
    | operand false => c != '}' && c != '\'' && c != '"'
    | operand true => c != '}' && c != '"'
    | document => true
    | number _ => c != '(' && c != ')'

def isEscapable (p : Place) (c : Char) : Bool :=
  match p with
  | plain => true
  | operand false => true
  | quoted => ['$', '`', '"', '\\'].contains c
  | operand true => ['$', '`', '"', '\\', '}'].contains c
  | document => ['$', '`', '\\'].contains c
  | number _ => ['$', '`', '\\'].contains c

/-- What is wrong if the text ends at a place; some places end with it. -/
def problem? : Place → Option Problem
  | plain => none
  | quoted => some (.quoteNotClosed '"')
  | operand _ => some .parameterNotClosed
  | document => none
  | number _ => some .numberNotClosed

end Place

def isSpecialParameter (c : Char) : Bool := "@*#?-$!".toList.contains c

/-- The text between backquotes, in which a backslash quotes three marks, and inside
quotation marks a fourth one; and what follows. -/
def takeBackquoted (inQuotes : Bool) : Text → Option (Text × Text)
  | [] => none
  | '`' :: rest => some ([], rest)
  | '\\' :: c :: rest => do
    let (t, after) ← takeBackquoted inQuotes rest
    if c = '\n' then return (t, after)
    else if c = '\\' ∨ c = '`' ∨ c = '$' ∨ (inQuotes ∧ c = '"') then return (c :: t, after)
    else return ('\\' :: c :: t, after)
  | c :: rest => do
    let (t, after) ← takeBackquoted inQuotes rest
    return (c :: t, after)

/-- The text of a quotation behind a dollar sign, which knows escapes, and what follows. -/
def takeEscaped : Text → Option (Text × Text)
  | [] => none
  | '\'' :: rest => some ([], rest)
  | '\\' :: c :: rest => do
    let (t, after) ← takeEscaped rest
    let single := [('n', '\n'), ('t', '\t'), ('r', '\r'), ('a', '\x07'), ('b', '\x08'),
      ('e', '\x1b'), ('f', '\x0c'), ('v', '\x0b'), ('\\', '\\'), ('\'', '\''), ('"', '"')]
    match single.lookup c with
    | some d => return (d :: t, after)
    | none => return ('\\' :: c :: t, after)
  | c :: rest => do
    let (t, after) ← takeEscaped rest
    return (c :: t, after)

/-- What a pair of braces asks of the parameter that it begins with, and the text behind
that question. -/
def readUse (dialect : Dialect) : Text → Use × Text
  | '}' :: rest => (.value, '}' :: rest)
  | ':' :: '-' :: rest => (.default true, rest)
  | ':' :: '=' :: rest => (.assign true, rest)
  | ':' :: '?' :: rest => (.demand true, rest)
  | ':' :: '+' :: rest => (.instead true, rest)
  | '-' :: rest => (.default false, rest)
  | '=' :: rest => (.assign false, rest)
  | '?' :: rest => (.demand false, rest)
  | '+' :: rest => (.instead false, rest)
  | '%' :: '%' :: rest => (.trimEnd true, rest)
  | '%' :: rest => (.trimEnd false, rest)
  | '#' :: '#' :: rest => (.trimStart true, rest)
  | '#' :: rest => (.trimStart false, rest)
  | ':' :: rest => (if dialect = .extended then .slice else .unknown, rest)
  | '/' :: rest => (if dialect = .extended then .replace else .unknown, rest)
  | rest => (.unknown, rest)

def readBracedName : Text → Option (Text × Bool × Text)
  | '#' :: '}' :: rest => some (['#'], false, '}' :: rest)
  | '#' :: c :: rest =>
    if c.isDigit then
      some ((c :: rest).takeWhile Char.isDigit, true, (c :: rest).dropWhile Char.isDigit)
    else if isName [c] then
      some ((c :: rest).takeWhile Text.isIdentifierChar, true,
        (c :: rest).dropWhile Text.isIdentifierChar)
    else if isSpecialParameter c && rest.head? == some '}' then some ([c], true, rest)
    else some (['#'], false, c :: rest)
  | c :: rest =>
    if c.isDigit then
      some ((c :: rest).takeWhile Char.isDigit, false, (c :: rest).dropWhile Char.isDigit)
    else if isName [c] then
      some ((c :: rest).takeWhile Text.isIdentifierChar, false,
        (c :: rest).dropWhile Text.isIdentifierChar)
    else if isSpecialParameter c then some ([c], false, rest)
    else none
  | [] => none

namespace Read

/-- The parameter in a pair of braces, of which the first has been read; `parts` reads the
word that the question names. -/
def bracedParameter (parts : Place → Read Word) (p : Place) : Read Word := do
  let r ← get
  match readBracedName (← text) with
  | none =>
    let operand ← parts (.operand p.quotes)
    skip 1
    return .parameter p.quotes [] .unknown operand .done
  | some (name, true, after) =>
    set { r with rest := after }
    let operand ← parts (.operand p.quotes)
    skip 1
    return .parameter p.quotes name (if operand.isDone then .size else .unknown) operand .done
  | some (name, false, after) =>
    let (use, after) := readUse r.dialect after
    set { r with rest := after }
    let isTrim := match use with
      | .trimStart _ | .trimEnd _ | .replace => true
      | _ => false
    let operand ← parts (.operand (p.quotes && !isTrim))
    skip 1
    return .parameter p.quotes name use operand .done

def bracketed (nested : Nested) (quoted : Bool) : Read Word := do
  let before ← get
  nested true
  let after ← get
  set { after with pushed := before.pushed }
  let length := before.rest.length - after.rest.length
  return .output quoted (before.rest.take (length - 1)) .done

def dollar (nested : Nested) (parts : Place → Read Word) (p : Place) : Read Word := do
  let dialect := (← get).dialect
  match ← text with
  | '(' :: rest => match rest with
    | '(' :: _ =>
      skip 2
      let expression ← parts (.number false)
      skip 2
      return .number p.quotes expression .done
    | _ =>
      skip 1
      bracketed nested p.quotes
  | '{' :: _ =>
    skip 1
    bracedParameter parts p
  | c :: rest =>
    if isName [c] then
      let name := (c :: rest).takeWhile Text.isIdentifierChar
      skip name.length
      return .parameter p.quotes name .value .done .done
    else if c.isDigit || isSpecialParameter c then
      skip 1
      return .parameter p.quotes [c] .value .done .done
    else if dialect = .extended && c = '\'' && !p.quotes then
      match takeEscaped rest with
      | some (t, after) =>
        modify fun r => { r with rest := after }
        return .text true t .done
      | none => fail (.quoteNotClosed '\'')
    else if dialect = .extended && c = '"' && !p.quotes then return .done
    else return .text p.quotes ['$'] .done
  | [] => return .text p.quotes ['$'] .done

def escaped (p : Place) : Read Word := do
  match (← get).rest with
  | [] => return .text true ['\\'] .done
  | c :: _ =>
    skip 1
    countLines [c]
    if p.isEscapable c then return .text true [c] .done
    else return .text true ['\\', c] .done

/-- The command between backquotes, of which the first has been read. Its text is read on
its own, to find what is wrong with it before anything is run. -/
def backquoted (nested : Nested) (quoted : Bool) : Read Word := do
  let r ← get
  match takeBackquoted quoted r.rest with
  | none => fail .backquoteNotClosed
  | some (script, after) =>
    set { r with rest := script, pushed := none }
    nested false
    set { r with
      rest := after
      line := r.line + (r.rest.take (r.rest.length - after.length)).count '\n' }
    return .output quoted script .done

def part (nested : Nested) (parts : Place → Read Word) (p : Place) : Read (Option Word) := do
  match ← text with
  | [] => match p.problem? with
    | none => return none
    | some problem => fail problem
  | c :: rest =>
    let ordinary := (c :: rest).takeWhile p.isOrdinary
    if !ordinary.isEmpty then
      skip ordinary.length
      countLines ordinary
      return some (.text p.quotes ordinary .done)
    else if c = '\\' then
      skip 1
      return some (← escaped p)
    else if c = '$' then
      skip 1
      return some (← dollar nested parts p)
    else if c = '`' then
      skip 1
      return some (← backquoted nested p.quotes)
    else if c = '\'' then
      match rest.dropWhile (· != '\'') with
      | [] => fail (.quoteNotClosed '\'')
      | _ :: after =>
        let inside := rest.takeWhile (· != '\'')
        modify fun r => { r with rest := after }
        countLines inside
        return some (.text true inside .done)
    else if c = '"' && p != .quoted then
      skip 1
      let inside ← parts .quoted
      skip 1
      return some (if inside.isAllArguments then inside else .cons true [] inside)
    else match p with
      | .number nested => match c, rest with
        | '(', _ =>
          skip 1
          let inside ← parts (.number true)
          skip 1
          return some (.cons true ['('] (inside.append (.text true [')'] .done)))
        | _, ')' :: _ => return none
        | _, _ =>
          if nested then return none
          skip 1
          return some (.text true [c] .done)
      | _ => return none

def parts (nested : Nested) : Nat → Place → Read Word
  | 0, _ => fail .tooDeep
  | n + 1, p => do
    match ← part nested (parts nested n) p with
    | none => return .done
    | some first => return first.append (← parts nested n p)

def wordAt (nested : Nested) (p : Place) : Read Word := do
  parts nested ((← get).size + 2) p

def skipBlanks : Nat → Read Unit
  | 0 => return
  | n + 1 => do
    match ← text with
    | c :: _ =>
      if c = ' ' || c = '\t' then
        skip 1
        skipBlanks n
    | [] => return

def skipSpace : Read Unit := do
  skipBlanks ((← get).size + 1)
  let r ← get
  if r.rest.head? = some '#' then set { r with rest := r.rest.dropWhile (· != '\n') }

def operators : List Text := ["&&", "||", ";;", "|", "&", ";", "(", ")"].map String.toList

def redirections (dialect : Dialect) : List Text :=
  (if dialect = .extended then ["<<<", "&>>", "&>"].map String.toList else []) ++
    ["<<-", "<<", "<&", "<>", "<", ">>", ">&", ">|", ">"].map String.toList

def first? (candidates : List Text) (t : Text) : Option Text := candidates.find? (·.isPrefixOf t)

def descriptorAt? (dialect : Dialect) (t : Text) : Option (Nat × Text) :=
  match t with
  | c :: rest =>
    if c.isDigit then
      (first? (redirections dialect) rest).bind fun op =>
        if op.head? = some '&' then none else some (c.toNat - '0'.toNat, op)
    else none
  | [] => none

def keywords (dialect : Dialect) : List Text :=
  ["!", "case", "do", "done", "elif", "else", "esac", "fi", "for", "if", "in", "then", "until",
    "while", "\x7b", "\x7d"].map String.toList ++
    if dialect = .extended then ["function", "[[", "time"].map String.toList else []

def takeNewline : Read Unit :=
  modify fun r => { r with
    rest := r.rest.drop 1
    line := r.line + 1 + r.documentLines
    documentLines := 0 }

def freshToken (nested : Nested) : Read Token := do
  skipSpace
  let r ← get
  match r.rest with
  | [] => return .endOfText
  | '\n' :: _ =>
    takeNewline
    return .newline
  | rest =>
    match descriptorAt? r.dialect rest with
    | some (n, op) =>
      skip (1 + op.length)
      return .redirection n op
    | none => match first? (redirections r.dialect) rest with
      | some op =>
        skip op.length
        return .redirection (if op.head? = some '<' then 0 else 1) op
      | none => match first? operators rest with
        | some op =>
          skip op.length
          return .operator op
        | none => return .word (← wordAt nested .plain)

def pastNewlines (nested : Nested) : Nat → Token → Read Token
  | n + 1, .newline => do pastNewlines nested n (← freshToken nested)
  | _, t => return t

/-- The text that a short name in front of the rest stands for, unless the name is part of
that text. -/
def aliasOf? (r : Reader) (name : Text) : Option Text := do
  let text ← r.aliases.get? name
  let left := r.rest.length + name.length
  if r.replaced.any (fun e => e.1 == name && e.2 < left) then none else return text

/-- The next token: the one that was put back, or else one from the text, where at most so
many short names are replaced. -/
def tokenWith (nested : Nested) : Nat → Read Token
  | 0 => return .endOfText
  | n + 1 => do
    let r ← get
    set { r with pushed := none, skipsNewlines := false, findsKeywords := false }
    let t ← match r.pushed with
      | some t => pure t
      | none => freshToken nested
    let t ← if r.skipsNewlines then pastNewlines nested (r.size + 1) t else pure t
    match t with
    | .word w => match w.plain? with
      | some name =>
        if !r.findsKeywords then return t
        else if (keywords r.dialect).contains name then return .keyword name
        else
          let after ← get
          match aliasOf? after name with
          | none => return t
          | some text =>
            set { after with
              rest := text ++ after.rest
              size := after.size + text.length
              findsKeywords := true
              replaced := (name, after.rest.length) :: after.replaced }
            tokenWith nested n
      | none => return t
    | _ => return t

def token (nested : Nested) : Read Token := do
  tokenWith nested ((← get).aliases.entries.length + 1)

def push (t : Token) : Read Unit := modify fun r => { r with pushed := some t }

def expecting (skipsNewlines findsKeywords : Bool) : Read Unit :=
  modify fun r => { r with
    skipsNewlines := r.skipsNewlines || skipsNewlines
    findsKeywords := r.findsKeywords || findsKeywords }

def unexpected {α : Type} (t : Token) (expected : Option Text := none) : Read α :=
  fail (.unexpected t expected)

def isMark (t : Token) (mark : Text) : Bool :=
  match t with
  | .operator u => u == mark
  | .keyword u => u == mark
  | _ => false

def expect (nested : Nested) (mark : Text) : Read Unit := do
  let t ← token nested
  unless isMark t mark do unexpected t (some ('"' :: mark ++ ['"']))

/-- The text up to the end of a line that is not quoted, and what follows the line break. -/
def splitLine : Option Char → Text → Text × Option Text
  | _, [] => ([], none)
  | some '\'', c :: rest =>
    let (line, after) := splitLine (if c = '\'' then none else some '\'') rest
    (c :: line, after)
  | mark, '\\' :: c :: rest =>
    let (line, after) := splitLine mark rest
    ('\\' :: c :: line, after)
  | mark, c :: rest =>
    if mark.isNone && c = '\n' then ([], some rest)
    else
      let next :=
        if mark = some c then none
        else if mark.isNone && (c = '"' || c = '\'') then some c
        else mark
      let (line, after) := splitLine next rest
      (c :: line, after)

def takeDelimiter : Option Char → Text → Text × Bool × Text
  | _, [] => ([], false, [])
  | some '\'', c :: rest =>
    if c = '\'' then takeDelimiter none rest
    else
      let (t, q, after) := takeDelimiter (some '\'') rest
      (c :: t, q, after)
  | some m, c :: rest =>
    if c = '"' then takeDelimiter none rest
    else
      let (t, q, after) := takeDelimiter (some m) rest
      (c :: t, q, after)
  | none, '\\' :: c :: rest =>
    let (t, _, after) := takeDelimiter none rest
    (c :: t, true, after)
  | none, c :: rest =>
    if Place.delimiters.contains c then ([], false, c :: rest)
    else if c = '"' || c = '\'' then
      let (t, _, after) := takeDelimiter (some c) rest
      (t, true, after)
    else
      let (t, q, after) := takeDelimiter none rest
      (c :: t, q, after)

/-- The text before the line that a here-document ends with, and what stands behind that
line. A line that is joined to the one before it is none of its own. -/
def takeDocument (strips joins : Bool) (delimiter : Text) : Nat → Bool → Text → Text × Text
  | 0, _, t => ([], t)
  | _, _, [] => ([], [])
  | n + 1, isJoined, t =>
    let line := t.takeWhile (· != '\n')
    let rest := t.drop line.length
    let shown := if strips && !isJoined then line.dropWhile (· == '\t') else line
    if !isJoined && shown = delimiter then ([], rest.drop 1)
    else
      let joinsNext := joins && (line.reverse.takeWhile (· == '\\')).length % 2 = 1
      let (more, below) := takeDocument strips joins delimiter n joinsNext (rest.drop 1)
      (shown ++ rest.take 1 ++ more, below)

/-- The word that stands for a here-document: its text, in which parameters and commands
are replaced unless a part of the delimiter is quoted. -/
def hereDocument (nested : Nested) (strips : Bool) : Read Word := do
  skipBlanks ((← get).size + 1)
  let (delimiter, quoted, after) := takeDelimiter none (← text)
  if delimiter.isEmpty && !quoted then unexpected (← token nested)
  let (line, body) := splitLine none after
  let body := body.getD []
  let (content, below) := takeDocument strips (!quoted) delimiter (body.length + 1) false body
  let r ← get
  let documentLines := r.documentLines + (body.length - below.length) -
    (body.take (body.length - below.length)).countP (· != '\n')
  let kept := if body.isEmpty then line else line ++ '\n' :: below
  if quoted then
    set { r with rest := kept, documentLines }
    return .ofText content
  else
    set { r with rest := content }
    let w ← wordAt nested .document
    set { r with rest := kept, documentLines }
    return w

def target (nested : Nested) : Read Word := do
  match ← token nested with
  | .word w => return w
  | t => unexpected t

def redirection (nested : Nested) (descriptor : Nat) (op : Text) : Read Redirection := do
  if op = "<<".toList ∨ op = "<<-".toList then
    return .document descriptor (← hereDocument nested (op.length == 3))
  let w ← target nested
  let openings : List (Text × Opening) := [("<", .input), (">", .output), (">>", .append),
    (">|", .overwrite), ("<>", .both)]
  match openings.lookup op with
  | some opening => return .file descriptor opening w
  | none =>
    if op = "<<<".toList then return .document descriptor (w.append (.ofText ['\n']))
    else if op = "&>".toList then return .outputs false w
    else if op = "&>>".toList then return .outputs true w
    else return .copy descriptor w

end Read

def Token.endsList : Token → Bool
  | .endOfText => true
  | .operator t => t == [')'] || t == ";;".toList
  | .keyword t =>
    ["do", "done", "elif", "else", "esac", "fi", "then", "\x7d"].contains (String.ofList t)
  | _ => false

def assignment? : Word → Option (Text × Word)
  | .text false t rest =>
    let name := t.takeWhile (· != '=')
    match t.drop name.length with
    | _ :: value => if isName name then some (name, Word.cons false value rest) else none
    | [] => none
  | _ => none

structure Grammar where
  nested : Nested
  /-- A list of commands inside another command, which may be empty. -/
  list : Bool → Read Command
  body : Read Command

namespace Grammar

open Read

/-- The words of a simple command, read up to what does not belong to it. -/
structure Pieces where
  assignments : List (Text × Word) := []
  words : List Word := []
  redirections : List Redirection := []

def function (g : Grammar) (w : Word) : Read Command := do
  let t ← token g.nested
  unless isMark t [')'] do unexpected t (some "\")\"".toList)
  match w.plain? with
  | some name =>
    let common := (← get).dialect = .common
    if common && (!isName name || (specialCommands.contains name && name != "local".toList)) then
      fail .badFunctionName
    expecting true true
    return .define name (← g.body)
  | none => fail .badFunctionName

def piece (g : Grammar) (line : Nat) (p : Pieces) : Read (Pieces ⊕ Command) := do
  let t ← token g.nested
  match t with
  | .word w =>
    match if p.words.isEmpty then assignment? w else none with
    | some a => return .inl { p with assignments := p.assignments ++ [a] }
    | none => return .inl { p with words := p.words ++ [w] }
  | .redirection n op =>
    let r ← redirection g.nested n op
    return .inl { p with redirections := p.redirections ++ [r] }
  | _ =>
    match p.words, isMark t ['('] && p.assignments.isEmpty && p.redirections.isEmpty with
    | [w], true => return .inr (← g.function w)
    | _, _ =>
      push t
      return .inr (.simple line p.assignments p.words p.redirections)

def simple (g : Grammar) : Read Command := do
  let line := (← get).line
  loop {} (g.piece line)

def redirected (g : Grammar) (line : Nat) (body : Command) : Read Command := do
  let found ← loop ([] : List Redirection) fun rs => do
    expecting false true
    match ← token g.nested with
    | .redirection n op => return .inl (rs ++ [← redirection g.nested n op])
    | t =>
      push t
      return .inr rs
  return if found.isEmpty then body else .redirected line found body

def branches (g : Grammar) : Nat → Read Command
  | 0 => fail .tooDeep
  | n + 1 => do
    let test ← g.list false
    expect g.nested "then"
    let yes ← g.list false
    let t ← token g.nested
    if isMark t "elif" then return .conditional test yes (← g.branches n)
    else if isMark t "else" then return .conditional test yes (← g.list false)
    else
      push t
      return .conditional test yes .nothing

def items (g : Grammar) : Read (List Word) :=
  loop [] fun ws => do
    let t ← token g.nested
    match t with
    | .word w => return .inl (ws ++ [w])
    | .newline => return .inr ws
    | _ => if isMark t [';'] then return .inr ws else unexpected t

def each (g : Grammar) (line : Nat) : Read Command := do
  let name ← match ← token g.nested with
    | .word w => match w.plain? with
      | some name => if isName name then pure name else fail .badLoopVariable
      | none => fail .badLoopVariable
    | _ => fail .badLoopVariable
  expecting true true
  let t ← token g.nested
  let ws ← if isMark t "in" then some <$> g.items
    else do
      unless isMark t [';'] do push t
      pure none
  expecting true true
  expect g.nested "do"
  let body ← g.list false
  expect g.nested "done"
  return .each line name ws body

def patterns (g : Grammar) (t : Token) : Read (List Word) := do
  let t ← if isMark t ['('] then token g.nested else pure t
  loop ([], t) fun (ws, t) => do
    let w ← match t with
      | .word w => pure w
      | .keyword k => pure (.text false k .done)
      | t => unexpected t (some "\")\"".toList)
    let next ← token g.nested
    if isMark next ['|'] then return .inl (ws ++ [w], ← token g.nested)
    else if isMark next [')'] then return .inr (ws ++ [w])
    else unexpected next (some "\")\"".toList)

def arms (g : Grammar) : Nat → Read Command
  | 0 => fail .tooDeep
  | n + 1 => do
    expecting true true
    let t ← token g.nested
    if isMark t "esac" then return .nothing
    let ps ← g.patterns t
    let body ← g.list true
    expecting true true
    let t ← token g.nested
    if isMark t "esac" then return .arm ps body .nothing
    else if isMark t ";;" then return .arm ps body (← g.arms n)
    else unexpected t (some "\";;\"".toList)

def choose (g : Grammar) (line : Nat) : Read Command := do
  let subject ← match ← token g.nested with
    | .word w => pure w
    | t => unexpected t (some "word".toList)
  expecting true true
  expect g.nested "in"
  return .choose line subject (← g.arms ((← get).size + 2))

def conditionWords (g : Grammar) : Read (List Word) :=
  loop [] fun ws => do
    match ← token g.nested with
    | .word w => return if w.plain? = some "]]".toList then .inr ws else .inl (ws ++ [w])
    | .operator op => return .inl (ws ++ [.text false op .done])
    | .redirection _ op => return .inl (ws ++ [.text false op .done])
    | .newline => return .inl ws
    | t => unexpected t

def announced (g : Grammar) : Read Command := do
  match ← token g.nested with
  | .word w =>
    let t ← token g.nested
    if isMark t ['('] then g.function w
    else
      push t
      expecting true true
      return .define (w.plain?.getD []) (← g.body)
  | t => unexpected t

def closed (g : Grammar) (mark : Text) : Read Command := do
  let body ← g.list false
  expect g.nested mark
  return body

def compound (g : Grammar) (line : Nat) (t : Token) : Read Command := do
  if isMark t "if" then
    let c ← g.branches ((← get).size + 2)
    expect g.nested "fi"
    return c
  else if isMark t "while" || isMark t "until" then
    let test ← g.list false
    expect g.nested "do"
    return .loop (isMark t "until") test (← g.closed "done")
  else if isMark t "for" then g.each line
  else if isMark t "case" then g.choose line
  else if isMark t "\x7b" then g.closed "\x7d"
  else if isMark t "[[" then return .condition line (← g.conditionWords)
  else unexpected t

/-- A command in round brackets; two of them stand for a number to be computed. -/
def bracketed (g : Grammar) (line : Nat) : Read Command := do
  let r ← get
  if r.dialect = .extended && r.rest.head? = some '(' then
    skip 1
    let expression ← wordAt g.nested (.number false)
    skip 2
    return .compute line expression
  else return .subshell line (← g.closed ")")

def command (g : Grammar) : Read Command := do
  let line := (← get).line
  let t ← token g.nested
  match t with
  | .word _ | .redirection _ _ =>
    push t
    g.simple
  | _ =>
    if isMark t "function" then g.announced
    else if isMark t "time" then g.body
    else
      let body ← if isMark t ['('] then g.bracketed line else g.compound line t
      g.redirected line body

def pipes (g : Grammar) : Nat → Command → Read Command
  | 0, _ => fail .tooDeep
  | n + 1, left => do
    let t ← token g.nested
    if isMark t ['|'] then
      expecting true true
      let right ← g.command
      return .pipe left (← g.pipes n right)
    else
      push t
      return left

def pipeline (g : Grammar) : Read Command := do
  let t ← token g.nested
  let isNegated := isMark t ['!']
  if isNegated then expecting false true else push t
  let first ← g.command
  let body ← g.pipes ((← get).size + 2) first
  return if isNegated then .negated body else body

def andOr (g : Grammar) : Read Command := do
  let first ← g.pipeline
  loop first fun left => do
    let t ← token g.nested
    if isMark t "&&" then
      expecting true true
      return .inl (.both left (← g.pipeline))
    else if isMark t "||" then
      expecting true true
      return .inl (.either left (← g.pipeline))
    else
      push t
      return .inr left

def sequence : Command → Command → Command
  | .nothing, c => c
  | b, c => .sequence b c

def listTurn (g : Grammar) (isLine : Bool) (s : Command × Bool) : Read ((Command × Bool) ⊕ Command) := do
  let (before, mayEnd) := s
  expecting (!isLine) true
  let t ← token g.nested
  match t with
  | .newline => return .inr before
  | .endOfText =>
    push t
    return .inr before
  | _ =>
    push t
    if !isLine && mayEnd && t.endsList then return .inr before
    let next ← g.andOr
    let t ← token g.nested
    let next := sequence before (if isMark t ['&'] then .background next else next)
    match t with
    | .endOfText =>
      push t
      return .inr next
    | .newline =>
      push t
      return .inl (next, true)
    | _ =>
      if isMark t ['&'] || isMark t [';'] then return .inl (next, true)
      else if isLine then unexpected t
      else
        push t
        return .inr next

/-- A list of commands; one inside another command may be said to be allowed to be empty. -/
def commands (g : Grammar) (isLine mayBeEmpty : Bool) : Read Command :=
  loop (.nothing, mayBeEmpty) (g.listTurn isLine)

/-- Passes over a list of commands, and the bracket that closes it if there is to be one. -/
def enclosed (g : Grammar) (isBracketed : Bool) : Read Unit := do
  let _ ← g.commands false true
  if isBracketed then expect g.nested [')']
  else match ← token g.nested with
    | .endOfText => return
    | t => unexpected t

end Grammar

/-- The grammar for commands that nest no deeper than a number. A level of it is made when
it is needed. -/
def grammar : Nat → Grammar
  | 0 => ⟨fun _ => Read.fail .tooDeep, fun _ => Read.fail .tooDeep, Read.fail .tooDeep⟩
  | n + 1 => {
      nested := fun isBracketed r => (grammar n).enclosed isBracketed r
      list := fun mayBeEmpty r => (grammar n).commands false mayBeEmpty r
      body := fun r => (grammar n).command r }

def readLine (r : Reader) : Except ScriptError (Command × Reader) :=
  ((grammar (r.size + 2)).commands true false).run { r with pushed := none }

def Reader.isDone (r : Reader) : Bool := r.rest.isEmpty

end Shell
end TypedCommand
