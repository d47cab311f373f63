import TypedCommand.Number.Integer
import TypedCommand.Shell.Pattern

/-!
Regular expressions in the basic and in the extended notation. A match is the longest one
at the first place that has one. The places where a part can end are found from the
greatest to the least, each of them once, so that an earlier part is as long as it can be.
-/

namespace TypedCommand

inductive Regex
  | empty
  | any
  | char (c : Char)
  | oneOf (negated : Bool) (members : List Shell.Pattern.Member)
  | sequence (a b : Regex)
  | either (a b : Regex)
  | repeated (least : Nat) (most : Option Nat) (r : Regex)
  | group (number : Nat) (r : Regex)
  | again (number : Nat)
  | atStart
  | atEnd
  | atTextStart
  | atTextEnd
  | atBoundary (expected : Bool)
  | atWordStart
  | atWordEnd

namespace Regex

inductive Fault
  | unmatchedOpening
  | unmatchedClosing
  | unmatchedBracket
  | unmatchedBrace
  | invalidRepetition
  | invalidCount
  | invalidReference
  | invalidClass
  | invalidRange
  | invalidElement
  | trailingBackslash

def Fault.text : Fault → Text
  | unmatchedOpening => "Unmatched ( or \\("
  | unmatchedClosing => "Unmatched ) or \\)"
  | unmatchedBracket => "Unmatched [, [^, [:, [., or [="
  | unmatchedBrace => "Unmatched \\\x7b"
  | invalidRepetition => "Invalid preceding regular expression"
  | invalidCount => "Invalid content of \\\x7b\\\x7d"
  | invalidReference => "Invalid back reference"
  | invalidClass => "Invalid character class name"
  | invalidRange => "Invalid range end"
  | invalidElement => "Invalid collation character"
  | trailingBackslash => "Trailing backslash"

/-- The two notations. In the basic one brackets and braces have their meaning behind a
backslash, in the extended one without. -/
inductive Dialect
  | basic
  | extended
deriving DecidableEq

def classNames : List Text :=
  ["alpha", "digit", "alnum", "upper", "lower", "space", "blank", "punct", "print", "graph",
    "cntrl", "xdigit"].map String.toList

def isRange : Text → Bool
  | '-' :: c :: _ => c != ']'
  | _ => false

def takeMembers : Nat → Bool → Text → Except Fault (List Shell.Pattern.Member × Text)
  | 0, _, _ => .error .unmatchedBracket
  | _, _, [] => .error .unmatchedBracket
  | n + 1, isFirst, c :: rest =>
    let item (m : Shell.Pattern.Member) (rest : Text) : Except Fault (List Shell.Pattern.Member × Text) := do
      let (ms, after) ← takeMembers n false rest
      return (m :: ms, after)
    if c = ']' && !isFirst then .ok ([], rest)
    else match c, rest with
      | '[', ':' :: inside =>
        let name := inside.takeWhile Char.isAlpha
        match inside.drop name.length with
        | ':' :: ']' :: after =>
          if !classNames.contains name then .error .invalidClass
          else if isRange after then .error .invalidRange
          else item (.named name) after
        | _ => item (.range c c) rest
      | '[', '.' :: d :: '.' :: ']' :: after => item (.range d d) after
      | '[', '=' :: d :: '=' :: ']' :: after => item (.range d d) after
      | '[', '.' :: _ => .error .invalidElement
      | _, '-' :: d :: after =>
        if d = ']' then item (.range c c) rest
        else if d < c || isRange after then .error .invalidRange
        else item (.range c d) after
      | _, _ => item (.range c c) rest

def takeSet (t : Text) : Except Fault (Regex × Text) := do
  match t with
  | '^' :: rest =>
    let (ms, after) ← takeMembers (rest.length + 1) true rest
    return (.oneOf true ms, after)
  | _ =>
    let (ms, after) ← takeMembers (t.length + 1) true t
    return (.oneOf false ms, after)

/-- What has been read of a regular expression: the text that remains, and the number of
groups so far and of those that are open. A strict reader takes a repetition only where there
is something to repeat; another one passes over it, and notes what it has passed over. -/
structure Progress where
  rest : Text
  groups : Nat := 0
  depth : Nat := 0
  isStrict : Bool := false
  idle : List Text := []

abbrev Parse := StateT Progress (Except Fault)

def wordMembers : List Shell.Pattern.Member := [.named "alnum", .range '_' '_']

def escapeLetter? (c : Char) : Option Regex :=
  match c with
  | 'w' => some (.oneOf false wordMembers)
  | 'W' => some (.oneOf true wordMembers)
  | 's' => some (.oneOf false [.named "space"])
  | 'S' => some (.oneOf true [.named "space"])
  | 'b' => some (.atBoundary true)
  | 'B' => some (.atBoundary false)
  | '<' => some .atWordStart
  | '>' => some .atWordEnd
  | '`' => some .atTextStart
  | '\'' => some .atTextEnd
  | 'n' => some (.char '\n')
  | _ => none

def takeCounts? (kind : Dialect) (t : Text) : Option (Nat × Option Nat × Text) :=
  let low := t.takeWhile Char.isDigit
  let rest := t.drop low.length
  let least := Text.digitsValue low
  let closed (rest : Text) : Option Text :=
    match kind, rest with
    | .basic, '\\' :: '\x7d' :: after => some after
    | .extended, '\x7d' :: after => some after
    | _, _ => none
  match rest with
  | ',' :: rest =>
    let high := rest.takeWhile Char.isDigit
    (closed (rest.drop high.length)).bind fun after =>
      if high.isEmpty then some (least, none, after)
      else if Text.digitsValue high < least then none
      else some (least, some (Text.digitsValue high), after)
  | _ => (closed rest).bind fun after => if low.isEmpty then none else some (least, some least, after)

def isClosedCount (t : Text) : Bool :=
  (t.dropWhile fun c => c.isDigit || c == ',').head? == some '\x7d'

def untilStop (kind : Dialect) : Text → Text × Text
  | [] => ([], [])
  | c :: rest =>
    let closes := match kind with
      | .basic => c == '\\' && rest.head? == some '\x7d'
      | .extended => c == '\x7d'
    if c = ',' || closes then ([], c :: rest)
    else
      let (before, after) := untilStop kind rest
      (c :: before, after)

/-- What is wrong with counts that cannot be read: the brace is not closed, or something
else stands in it. -/
def countFault (kind : Dialect) (t : Text) : Fault :=
  let (low, rest) := untilStop kind t
  if rest.isEmpty then .unmatchedBrace
  else if !low.all Char.isDigit || !rest.head?.any (· == ',') then .invalidCount
  else if (untilStop kind (rest.drop 1)).2.isEmpty then .unmatchedBrace
  else .invalidCount

def repetitions (kind : Dialect) : Nat → Regex → Parse Regex
  | 0, r => return r
  | n + 1, r => do
    let p ← get
    let found : Option (Nat × Option Nat × Text) := match kind, p.rest with
      | _, '*' :: rest => some (0, none, rest)
      | .extended, '+' :: rest => some (1, none, rest)
      | .extended, '?' :: rest => some (0, some 1, rest)
      | .basic, '\\' :: '+' :: rest => some (1, none, rest)
      | .basic, '\\' :: '?' :: rest => some (0, some 1, rest)
      | _, _ => none
    -- In the basic notation, a strict reader admits nothing but the forms with a backslash
    -- behind a repetition.
    let again (least : Nat) (most : Option Nat) (rest : Text) : Parse Regex := do
      set { p with rest }
      if p.isStrict && kind = .basic && (['*'].isPrefixOf rest || ['\\', '\x7b'].isPrefixOf rest) then
        throw .invalidRepetition
      repetitions kind n (.repeated least most r)
    match found with
    | some (least, most, rest) => again least most rest
    | none =>
      let braces : Option Text := match kind, p.rest with
        | .basic, '\\' :: '\x7b' :: rest => some rest
        | .extended, '\x7b' :: rest =>
          if p.isStrict || rest.head?.any (fun c => c.isDigit || c == ',' || c == '\x7d') then some rest
          else none
        | _, _ => none
      match braces with
      | none => return r
      | some inside => match takeCounts? kind inside with
        | some (least, most, rest) => again least most rest
        | none =>
          if kind = .basic || p.isStrict then throw (countFault kind inside)
          else if isClosedCount inside then throw .invalidCount
          else return r

/-- Whether nothing but an end of the expression, or of a part of it, follows; a closing
bracket ends something inside a group. -/
def endsHere (kind : Dialect) (isInside : Bool) (t : Text) : Bool :=
  match kind, t with
  | _, [] => true
  | .basic, '\\' :: ')' :: _ => true
  | .basic, '\\' :: '|' :: _ => true
  | .extended, ')' :: _ => isInside
  | .extended, '|' :: _ => true
  | _, _ => false

def grouped (kind : Dialect) (whole : Parse Regex) : Parse Regex := do
  let p ← get
  set { p with groups := p.groups + 1, depth := p.depth + 1 }
  let r ← whole
  let q ← get
  let rest ← match kind, q.rest with
    | .basic, '\\' :: ')' :: rest => pure rest
    | .extended, ')' :: rest => pure rest
    | _, _ => throw .unmatchedOpening
  set { q with rest, depth := p.depth }
  return .group (p.groups + 1) r

/-- The part that a character begins, which is the first of its branch or not. -/
def part (kind : Dialect) (whole : Parse Regex) (isFirst : Bool) (c : Char) (rest : Text) :
    Parse Regex := do
  modify fun p => { p with rest }
  let basic := kind = .basic
  match c, rest with
  | '.', _ => return .any
  | '[', _ =>
    let (r, rest) ← takeSet rest
    modify fun p => { p with rest }
    return r
  | '\\', [] => throw .trailingBackslash
  | '\\', d :: after =>
    modify fun p => { p with rest := after }
    if basic && d = '(' then grouped kind whole
    else if d.isDigit && d != '0' then
      let n := d.toNat - '0'.toNat
      if (← get).groups < n then throw .invalidReference
      return .again n
    else if basic && d = '\x7b' && isFirst && (← get).isStrict then throw .invalidRepetition
    else return (escapeLetter? d).getD (.char d)
  | '^', _ => return if !basic || isFirst then .atStart else .char c
  | '$', _ => return if !basic || endsHere kind true rest then .atEnd else .char c
  | '(', _ => if basic then return .char c else grouped kind whole
  | _, _ => return .char c

/-- The mark of a repetition, at the front of a branch, that has nothing to repeat. -/
def idleMark? (kind : Dialect) : Text → Option Text
  | '*' :: _ => if kind = .extended then some "*" else none
  | '+' :: _ => if kind = .extended then some "+" else none
  | '?' :: _ => if kind = .extended then some "?" else none
  | '\x7b' :: rest =>
    if kind = .extended && rest.head?.any (fun c => c.isDigit || c == ',') && isClosedCount rest then
      some "\x7b...\x7d"
    else none
  | _ => none

def branch (kind : Dialect) (whole : Parse Regex) : Nat → Bool → Parse Regex
  | 0, _ => return .empty
  | n + 1, isFirst => do
    let p ← get
    match p.rest with
    | [] => return .empty
    | c :: rest =>
      if endsHere kind (p.isStrict || 0 < p.depth) p.rest then return .empty
      else if let some mark := if isFirst then idleMark? kind p.rest else none then
        if p.isStrict then throw .invalidRepetition
        set { p with rest, idle := p.idle ++ [mark] }
        branch kind whole n true
      else
        let r ← part kind whole isFirst c rest
        let r ← match isFirst && (kind == .basic || p.isStrict), r with
          | true, .atStart => pure r
          | _, _ => repetitions kind (rest.length + 1) r
        let isStart := match isFirst, r with
          | true, .atStart => true
          | _, _ => false
        let more ← branch kind whole n isStart
        return match more with
          | .empty => r
          | more => .sequence r more

def whole (kind : Dialect) : Nat → Parse Regex
  | 0 => return .empty
  | n + 1 => do
    let p ← get
    let a ← branch kind (whole kind n) (p.rest.length + 1) true
    let p ← get
    match kind, p.rest with
    | .basic, '\\' :: '|' :: rest =>
      set { p with rest }
      return .either a (← whole kind n)
    | .extended, '|' :: rest =>
      set { p with rest }
      return .either a (← whole kind n)
    | _, _ => return a

def readWithIdle (kind : Dialect) (t : Text) (isStrict : Bool := false) :
    Except Fault (Regex × List Text) := do
  let (r, p) ← (whole kind (t.length + 1)).run { rest := t, isStrict }
  if p.rest.isEmpty then return (r, p.idle) else throw .unmatchedClosing

def read (kind : Dialect) (t : Text) (isStrict : Bool := false) : Except Fault Regex :=
  (readWithIdle kind t isStrict).map Prod.fst

def groupCount : Regex → Nat
  | .sequence a b => max (groupCount a) (groupCount b)
  | .either a b => max (groupCount a) (groupCount b)
  | .repeated _ _ r => groupCount r
  | .group n r => max n (groupCount r)
  | _ => 0

def ofText : Text → Regex
  | [] => .empty
  | [c] => .char c
  | c :: rest => .sequence (.char c) (ofText rest)

/-- A place in a text: the character before it, what follows, how many characters are
before it, and where the groups matched. -/
structure Place where
  before : Option Char
  rest : Text
  position : Nat
  groups : List (Nat × Nat × Nat) := []

structure Subject where
  text : Text
  ignoresCase : Bool := false
  /-- Whether each line of the text begins and ends like the text itself. -/
  hasLines : Bool := false

def isWordChar (c : Char) : Bool := Text.isIdentifierChar c

def same (s : Subject) (a b : Char) : Bool := a == b || (s.ignoresCase && a.toLower == b.toLower)

def hasMember (s : Subject) (ms : List Shell.Pattern.Member) (c : Char) : Bool :=
  ms.any (·.has c) || (s.ignoresCase && (ms.any (·.has c.toLower) || ms.any (·.has c.toUpper)))

def Place.step (p : Place) (test : Char → Bool) : List Place :=
  match p.rest with
  | c :: rest => if test c then [{ p with before := some c, rest, position := p.position + 1 }] else []
  | [] => []

def Place.pass (s : Subject) : Text → Place → List Place
  | [], p => [p]
  | c :: t, p => (p.step (same s c ·)).flatMap (Place.pass s t)

def distinct : List Nat → List Place → List Place
  | _, [] => []
  | seen, p :: rest =>
    if seen.contains p.position then distinct seen rest
    else p :: distinct (p.position :: seen) rest

def ordered (ps : List Place) : List Place :=
  (distinct [] ps).mergeSort fun a b => b.position ≤ a.position

/-- The places that repeating a step reaches from some places, with at most so many turns,
beside those seen already. -/
def closure (step : Place → List Place) : Nat → List Place → List Place → List Place
  | 0, seen, _ => seen
  | n + 1, seen, frontier =>
    let next := distinct (seen.map (·.position)) (frontier.flatMap step)
    if next.isEmpty then seen else closure step n (seen ++ next) next

def times (step : Place → List Place) : Nat → List Place → List Place
  | 0, ps => ps
  | n + 1, ps => times step n (distinct [] (ps.flatMap step))

def ends (s : Subject) : Regex → Place → List Place
  | .empty, p => [p]
  | .any, p => p.step fun _ => true
  | .char c, p => p.step (same s c ·)
  | .oneOf negated ms, p => p.step fun c => hasMember s ms c != negated
  | .sequence a b, p => ordered ((ends s a p).flatMap (ends s b))
  | .either a b, p => ordered (ends s a p ++ ends s b p)
  | .repeated least most r, p =>
    let step := ends s r
    let start := times step least [p]
    let turns := match most with
      | some m => m - least
      | none => p.rest.length + 1
    ordered (closure step turns start start)
  | .group n r, p =>
    (ends s r p).map fun q =>
      { q with groups := (n, p.position, q.position) :: q.groups.filter (fun g => g.1 != n) }
  | .again n, p => match p.groups.lookup n with
    | some (first, last) => Place.pass s ((s.text.drop first).take (last - first)) p
    | none => []
  | .atStart, p =>
    if p.before.isNone || (s.hasLines && p.before == some '\n') then [p] else []
  | .atEnd, p =>
    if p.rest.isEmpty || (s.hasLines && p.rest.head? == some '\n') then [p] else []
  | .atTextStart, p => if p.before.isNone then [p] else []
  | .atTextEnd, p => if p.rest.isEmpty then [p] else []
  | .atBoundary expected, p =>
    if (p.before.any isWordChar != p.rest.head?.any isWordChar) = expected then [p] else []
  | .atWordStart, p => if !p.before.any isWordChar && p.rest.head?.any isWordChar then [p] else []
  | .atWordEnd, p => if p.before.any isWordChar && !p.rest.head?.any isWordChar then [p] else []

/-- A match: where it begins and ends, and where its groups do. -/
structure Match where
  first : Nat
  last : Nat
  groups : List (Nat × Nat × Nat)

def matchAt? (s : Subject) (r : Regex) (p : Place) : Option Match :=
  (ordered (ends s r p)).head?.map fun q => ⟨p.position, q.position, q.groups⟩

def searchFrom (s : Subject) (r : Regex) (before : Option Char) (position : Nat) :
    Text → Option Match
  | [] => matchAt? s r ⟨before, [], position, []⟩
  | c :: rest =>
    match matchAt? s r ⟨before, c :: rest, position, []⟩ with
    | some m => some m
    | none => searchFrom s r (some c) (position + 1) rest

def search (s : Subject) (r : Regex) (start : Nat := 0) : Option Match :=
  let before := if start = 0 then none else s.text[start - 1]?
  searchFrom s r before start (s.text.drop start)

/-- All matches in a text, at most so many, none of which overlap; an empty one does not
stand directly behind another. -/
def searchAll (s : Subject) (r : Regex) : Nat → Nat → Option Nat → List Match
  | 0, _, _ => []
  | n + 1, start, previous =>
    if s.text.length < start then []
    else match search s r start with
      | none => []
      | some m =>
        if m.first = m.last then
          if previous = some m.first then searchAll s r n (start + 1) none
          else m :: searchAll s r n (m.last + 1) none
        else m :: searchAll s r n m.last (some m.last)

def matchesIn (s : Subject) (r : Regex) : List Match := searchAll s r (2 * s.text.length + 2) 0 none

def Match.text (m : Match) (t : Text) : Text := (t.drop m.first).take (m.last - m.first)

def Match.groupText (m : Match) (n : Nat) (t : Text) : Text :=
  if n = 0 then m.text t
  else match m.groups.lookup n with
    | some (first, last) => (t.drop first).take (last - first)
    | none => []

end Regex
end TypedCommand
