import TypedCommand.Shell.Arithmetic
import TypedCommand.Shell.Pattern
import TypedCommand.Shell.Process

/-!
What words become before they are used. The parts of a word are first replaced by marked
characters; where a word can become several, these are then split at the separators that
stand in replaced parts, and each piece is taken for a pattern of paths.
-/

namespace TypedCommand

namespace Shell

/-- A marked character. One that is quoted stands for itself; one that is replaced can
separate. A quotation counts even if nothing is in it, and a border lies between the values
of a list of parameters. -/
inductive Glyph
  | char (c : Char) (quoted replaced : Bool)
  | quotation
  | border
deriving DecidableEq

namespace Glyph

def ofText (quoted replaced : Bool) (t : Text) : List Glyph :=
  (if quoted then [quotation] else []) ++ t.map fun c => char c quoted replaced

/-- The text of marked characters; between the values of a list there is a blank. -/
def text : List Glyph → Text
  | [] => []
  | char c _ _ :: rest => c :: text rest
  | quotation :: rest => text rest
  | border :: rest => ' ' :: text rest

/-- The pattern that marked characters make. In the common language a set is not negated by
a circumflex. -/
def pattern (dialect : Dialect) : List Glyph → Pattern
  | [] => []
  | char c quoted _ :: rest =>
    (c, !quoted && (dialect = .extended || c != '^')) :: pattern dialect rest
  | quotation :: rest => pattern dialect rest
  | border :: rest => (' ', true) :: pattern dialect rest

end Glyph

/-- The pieces of a word that are complete, last one first, and the piece at hand, last
character first; whether blanks have just ended a piece. -/
structure Splitting where
  pieces : List (List Glyph) := []
  piece : List Glyph := []
  afterBlank : Bool := false

namespace Splitting

def finish (s : Splitting) : Splitting :=
  if s.piece.isEmpty then s
  else { s with pieces := s.piece.reverse :: s.pieces, piece := [] }

/-- Takes the next marked character. Blanks among the separators only end a piece, so that
several count as one, and they count as one with another separator beside them. -/
def take (separators : Text) (s : Splitting) (g : Glyph) : Splitting :=
  let kept : Splitting := { s with piece := g :: s.piece, afterBlank := false }
  match g with
  | .border => { s.finish with afterBlank := false }
  | .quotation => kept
  | .char c quoted replaced =>
    if quoted || !replaced || !separators.contains c then kept
    else if c = ' ' || c = '\t' || c = '\n' then
      if s.piece.isEmpty then s else { s.finish with afterBlank := true }
    else if s.piece.isEmpty && s.afterBlank then { s with afterBlank := false }
    else { pieces := s.piece.reverse :: s.pieces }

end Splitting

def split (separators : Text) (gs : List Glyph) : List (List Glyph) :=
  (gs.foldl (Splitting.take separators) {}).finish.pieces.reverse

/-- Where a tilde stands for a directory: nowhere, at the front of a word, or also behind
each colon. -/
inductive Tildes
  | nowhere
  | front
  | colons
deriving DecidableEq

/-- How a word is expanded: whether a list of parameters makes several words, whether its
text takes part in a replacement, and what tildes mean. -/
structure Manner where
  several : Bool := false
  replaced : Bool := false
  tildes : Tildes := .nowhere

namespace Act

def separators : Act Text := do return (← valueOf? "IFS").getD [' ', '\t', '\n']

def homeOf? (user : Text) : Act (Option Text) := do
  if user.isEmpty then valueOf? "HOME"
  else return if user = "root".toList then some "/root" else none

def single? (name : Text) : Act (Option Text) := do
  let p ← process
  match name with
  | ['#'] => return some (Text.ofNat p.arguments.length)
  | ['?'] => return some (Text.ofNat p.status)
  | ['$'] => return some (Text.ofNat p.number)
  | ['!'] => return p.background.map Text.ofNat
  | ['-'] => return some p.options.shown
  | _ =>
    if Text.isDigits name then
      let n := Text.digitsValue name
      return if n = 0 then some p.name else p.arguments[n - 1]?
    else valueOf? name

def isList (name : Text) : Bool := name == ['@'] || name == ['*']

/-- The arguments as one text: with the first separator between them, or with a blank for
the form that keeps them apart elsewhere. -/
def joined (name : Text) : Act Text := do
  let first := (← separators).take 1
  let between := if name = ['*'] then first else [' ']
  return between.intercalate (← process).arguments

def bordered : List (List Glyph) → List Glyph
  | [] => []
  | [g] => g
  | g :: rest => g ++ .border :: bordered rest

def value? (m : Manner) (quoted : Bool) (name : Text) : Act (Option (List Glyph)) := do
  if isList name then
    let p ← process
    if p.arguments.isEmpty then return none
    else if m.several && !(quoted && name = ['*']) then
      return some (bordered (p.arguments.map (Glyph.ofText quoted true)))
    else return some (Glyph.ofText quoted true (← joined name))
  else return (← single? name).map (Glyph.ofText quoted true)

def checkSet (name : Text) : Act Unit := do
  if (← process).options.refusesUnset && !isList name then
    if (← single? name).isNone then
      if (← process).dialect = .extended then
        warn (name ++ ": unbound variable")
        throw (.fail 127)
      else failWith (name ++ ": parameter not set")

/-- A part of a text, from a position and of a length that can count from its end. -/
def slice (t : Text) (start : Int) (length : Option Int) : Text :=
  let first := if start < 0 then t.length - start.natAbs else start.toNat
  if start < 0 && t.length < start.natAbs then []
  else
    let rest := t.drop first
    match length with
    | none => rest
    | some n => rest.take (if n < 0 then rest.length - n.natAbs else n.toNat)

def arithmeticMessage (dialect : Dialect) (expression : Text) : Arithmetic.Fault → Text
  | .illegalNumber t =>
    if dialect = .extended then
      expression ++ ": syntax error: invalid arithmetic operator (error token is \"" ++ t ++ "\")"
    else "Illegal number: " ++ t
  | fault =>
    let said : Text := match fault with
      | .primaryExpected => "expecting primary"
      | .endExpected => "expecting EOF"
      | .bracketExpected => "expecting ')'"
      | .colonExpected => "expecting ':'"
      | _ => "division by zero"
    match dialect, fault with
    | .extended, .divisionByZero => expression ++ ": division by 0 (error token is \"0\")"
    | .extended, _ => expression ++ ": syntax error: operand expected"
    | .common, _ => "arithmetic expression: " ++ said ++ ": \"" ++ expression ++ "\""

def compute (expression : Text) : Act Int64 := do
  let p ← process
  let look (name : Text) : Option Text := (p.bindings.get? name).bind (·.value)
  match Arithmetic.compute p.dialect look expression with
  | .ok (n, assigned) =>
    for (name, value) in assigned.reverse do assign name value
    return n
  | .error fault =>
    warn (arithmeticMessage p.dialect expression fault)
    throw (.fail (if p.dialect = .extended then 1 else 2))

def wholeText (name : Text) : Act Text := do
  if isList name then joined name else return (← single? name).getD []

def size (name : Text) : Act Nat := do
  let p ← process
  if isList name && p.dialect = .extended then return p.arguments.length
  else return (← wholeText name).length

/-- What an alternative to the value of a parameter depends on: whether it has one that
counts. -/
def counts (name : Text) (orEmpty : Bool) : Act Bool := do
  if isList name then
    let p ← process
    return !p.arguments.isEmpty && !(orEmpty && (← joined name).isEmpty)
  else match ← single? name with
    | none => return false
    | some t => return !(orEmpty && t.isEmpty)

/-- Replaces a part of a value: the operand holds the pattern and, behind a slash, what
takes its place. -/
def replaceIn (value : Text) (operand : List Glyph) : Text :=
  let isEnd (g : Glyph) : Bool := g == .char '/' false false || g == .char '/' false true
  let everywhere := operand.head?.any isEnd
  let operand := if everywhere then operand.drop 1 else operand
  let pattern := operand.takeWhile (!isEnd ·)
  let put := Glyph.text (operand.drop (pattern.length + 1))
  Pattern.replace everywhere (Glyph.pattern .extended pattern) put value

/-- The part of a word that a parameter makes. The operand is expanded only where it
counts. -/
def parameter (m : Manner) (quoted : Bool) (name : Text) (use : Use) (operand : Act (List Glyph)) :
    Act (List Glyph) := do
  let absent := if quoted && !(m.several && name = ['@']) then [Glyph.quotation] else []
  let value : Act (List Glyph) := do return (← value? m quoted name).getD absent
  match use with
  | .value =>
    checkSet name
    value
  | .size =>
    checkSet name
    return Glyph.ofText quoted true (Text.ofNat (← size name))
  | .default orEmpty => if ← counts name orEmpty then value else operand
  | .instead orEmpty => if ← counts name orEmpty then operand else return absent
  | .assign orEmpty =>
    if ← counts name orEmpty then value
    else
      let t := Glyph.text (← operand)
      if isName name then
        assign name t
        return Glyph.ofText quoted true t
      else failWith (name ++ ": bad variable name")
  | .demand orEmpty =>
    if ← counts name orEmpty then value
    else
      let said := Glyph.text (← operand)
      let usual : Text := if orEmpty then "parameter not set or null" else "parameter not set"
      warn (name ++ ": " ++ if said.isEmpty then usual else said)
      throw (.fail (if (← process).dialect = .extended then 127 else 2))
  | .trimStart longest =>
    checkSet name
    let t ← wholeText name
    let pattern := Glyph.pattern (← process).dialect (← operand)
    return Glyph.ofText quoted true (Pattern.trimStart longest pattern t)
  | .trimEnd longest =>
    checkSet name
    let t ← wholeText name
    let pattern := Glyph.pattern (← process).dialect (← operand)
    return Glyph.ofText quoted true (Pattern.trimEnd longest pattern t)
  | .slice =>
    let t ← wholeText name
    match (Glyph.text (← operand)).splitOn ':' with
    | [start] => return Glyph.ofText quoted true (slice t (← compute start).toInt none)
    | start :: length :: _ =>
      let first ← compute start
      return Glyph.ofText quoted true (slice t first.toInt (some (← compute length).toInt))
    | [] => return absent
  | .replace => return Glyph.ofText quoted true (replaceIn (← wholeText name) (← operand))
  | .unknown => failWith "Bad substitution"

/-- Unquoted text of a word. Where a tilde and perhaps a name stand for a directory, it
takes their place; `isFront` says that the text begins the word, and `isLast` that it ends
it. -/
def tildeText (m : Manner) (isFront isLast : Bool) (t : Text) : Act (List Glyph) := do
  let plain := Glyph.ofText false m.replaced
  let segment (s : Text) (starts ends : Bool) : Act (List Glyph) := do
    match s with
    | '~' :: rest =>
      let user := rest.takeWhile (· != '/')
      if !starts || (user.length = rest.length && !ends) then return plain s
      match ← homeOf? user with
      | some home => return Glyph.ofText true false home ++ plain (rest.drop user.length)
      | none => return plain s
    | _ => return plain s
  match m.tildes with
  | .nowhere => return plain t
  | .front => segment t isFront isLast
  | .colons =>
    let segments := t.splitOn ':'
    let done ← segments.zipIdx.mapM fun (s, i) =>
      segment s (isFront || 0 < i) (isLast || i + 1 < segments.length)
    return List.intercalate (plain [':']) done

/-- The marked characters of a word. `run` carries out a command in the word and gives what
it prints. -/
def glyphs (run : Text → Act Text) (m : Manner) (isFront : Bool) : Word → Act (List Glyph)
  | .done => return []
  | .text quoted t rest => do
    let first ← if quoted then pure (Glyph.ofText true m.replaced t)
      else tildeText m isFront rest.isDone t
    return first ++ (← glyphs run m false rest)
  | .parameter quoted name use operand rest => do
    let first ← parameter m quoted name use
      (glyphs run { m with replaced := !quoted, tildes := .front } (!quoted) operand)
    return first ++ (← glyphs run m false rest)
  | .output quoted script rest => do
    let t ← run script
    let shown := (Text.trimEnd (· == '\n') t).filter (· != Char.ofNat 0)
    return Glyph.ofText quoted true shown ++ (← glyphs run m false rest)
  | .number quoted expression rest => do
    let n ← compute (Glyph.text (← glyphs run {} false expression))
    return Glyph.ofText quoted true (Text.ofInt n.toInt) ++ (← glyphs run m false rest)

def wordText (run : Text → Act Text) (tildes : Tildes) (w : Word) : Act Text := do
  return Glyph.text (← glyphs run { tildes } true w)

def patternOf (run : Text → Act Text) (w : Word) : Act Pattern := do
  return Glyph.pattern (← process).dialect (← glyphs run { tildes := .front } true w)

def wordsOf (run : Text → Act Text) (w : Word) : Act (List Text) := do
  let pieces := split (← separators) (← glyphs run { several := true, tildes := .front } true w)
  let p ← process
  let tree := (← world).files
  return pieces.flatMap fun piece =>
    let pattern := Glyph.pattern p.dialect piece
    if p.options.keepsPatterns || !pattern.isActive then [Glyph.text piece]
    else match Pattern.paths tree p.directory pattern with
      | [] => [Glyph.text piece]
      | found => found

end Act

end Shell
end TypedCommand
