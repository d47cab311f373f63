import TypedCommand.FileTree
import TypedCommand.Number.Integer

/-!
Conditions on files, texts and numbers, as a list of words. An operator between two words
comes before one in front of a word, and a word alone holds unless it is empty.
-/

namespace TypedCommand

namespace Shell

namespace Condition

inductive Complaint
  | unexpectedOperator (word next : Text)
  | argumentExpected (operator : Text)
  | bracketExpected
  | illegalNumber (word : Text)
deriving DecidableEq

def prefixes : List Text :=
  ["-r", "-w", "-x", "-e", "-f", "-d", "-c", "-b", "-p", "-u", "-g", "-k", "-s", "-t", "-z", "-n",
    "-h", "-L", "-O", "-G", "-S"].map String.toList

def infixes (hasDoubleEquals : Bool) : List Text :=
  (["=", "!=", "<", ">", "-eq", "-ne", "-ge", "-gt", "-le", "-lt", "-nt", "-ot", "-ef"] ++
    if hasDoubleEquals then ["=="] else []).map String.toList

inductive Sense
  | missing
  | operand
  | before
  | between
  | negation
  | conjunction
  | disjunction
  | opening
  | closing
deriving DecidableEq

/-- The sense of the first of some words. An operator in front of nothing, or in front of an
operator between words, is an operand itself. -/
def sense (eq : Bool) : List Text → Sense
  | [] => .missing
  | w :: rest =>
    if prefixes.contains w then
      match rest with
      | [] => .operand
      | [_] => .before
      | v :: _ => if (infixes eq).contains v then .operand else .before
    else if (infixes eq).contains w then .between
    else if w = "!".toList then .negation
    else if w = "-a".toList then .conjunction
    else if w = "-o".toList then .disjunction
    else if w = "(".toList then (if rest.isEmpty then .operand else .opening)
    else if w = ")".toList then .closing
    else .operand

def number (w : Text) : Except Complaint Int :=
  let isSpace (c : Char) : Bool := c == ' ' || (9 ≤ c.toNat && c.toNat ≤ 13)
  let (negative, digits) := Text.splitSign (Text.trimEnd isSpace (Text.trimStart isSpace w))
  if Text.isDigits digits then
    .ok (if negative then -(Text.digitsValue digits : Int) else Text.digitsValue digits)
  else .error (.illegalNumber w)

def holdsOf (t : FileTree) (directory : Text) (op w : Text) : Bool :=
  let isLinkTest := op = "-L".toList || op = "-h".toList
  match if isLinkTest then t.look? directory w else t.find? directory w with
  | none => false
  | some (_, entry) => match String.ofList op, entry with
    | "-d", e => e.isDirectory
    | "-f", .file _ _ => true
    | "-f", .program _ => true
    | "-f", _ => false
    | "-x", e => e.isExecutable
    | "-s", .file content _ => !content.isEmpty
    | "-s", .device _ => false
    | "-c", .device _ => true
    | "-L", e => e.isLink
    | "-h", e => e.isLink
    | "-r", _ => true
    | "-w", _ => true
    | "-e", _ => true
    | "-s", _ => true
    | "-O", _ => true
    | "-G", _ => true
    | _, _ => false

def checkBefore (t : FileTree) (directory op w : Text) : Bool :=
  if op = "-n".toList then !w.isEmpty
  else if op = "-z".toList then w.isEmpty
  else if op = "-t".toList then false
  else holdsOf t directory op w

def checkBetween (t : FileTree) (directory a op b : Text) : Except Complaint Bool :=
  let compare (p : Int → Int → Bool) : Except Complaint Bool := do return p (← number a) (← number b)
  match String.ofList op with
  | "=" => .ok (a == b)
  | "==" => .ok (a == b)
  | "!=" => .ok (a != b)
  | "<" => .ok (decide (a < b))
  | ">" => .ok (decide (b < a))
  | "-eq" => compare (· == ·)
  | "-ne" => compare (· != ·)
  | "-lt" => compare (· < ·)
  | "-le" => compare (· ≤ ·)
  | "-gt" => compare (· > ·)
  | "-ge" => compare (· ≥ ·)
  | "-ef" => .ok (match t.find? directory a, t.find? directory b with
    | some x, some y => (t.placesOf x.1).contains y.1
    | _, _ => false)
  | "-nt" => .ok ((t.find? directory a).isSome && (t.find? directory b).isNone)
  | "-ot" => .ok ((t.find? directory a).isNone && (t.find? directory b).isSome)
  | _ => .ok false

abbrev Step := List Text → Except Complaint (Bool × List Text)

def simple (eq : Bool) (t : FileTree) (directory : Text) (whole : Step) : Step := fun ws =>
  match sense eq ws, ws with
  | .missing, _ => .ok (false, ws)
  | .opening, _ :: rest =>
    if sense eq rest = .closing then .ok (false, rest)
    else do
      let (value, last) ← whole rest
      if sense eq (last.drop 1) = .closing then return (value, last.drop 1)
      else .error .bracketExpected
  | .before, op :: rest => match rest with
    | [] => .error (.argumentExpected op)
    | w :: _ => .ok (checkBefore t directory op w, rest)
  | _, a :: rest =>
    if sense eq rest = .between then
      match rest with
      | op :: b :: more => do return (← checkBetween t directory a op b, b :: more)
      | op :: [] => .error (.argumentExpected op)
      | [] => .ok (!a.isEmpty, ws)
    else .ok (!a.isEmpty, ws)
  | _, [] => .ok (false, ws)

def negated (eq : Bool) (step : Step) : Nat → Step
  | 0, ws => step ws
  | n + 1, ws =>
    if sense eq ws = .negation then
      if ws.length < 2 then .ok (true, ws)
      else do
        let (value, last) ← negated eq step n (ws.drop 1)
        return (!value, last)
    else step ws

def joined (eq : Bool) (connector : Sense) (combine : Bool → Bool → Bool) (step : Step) :
    Nat → Step
  | 0, ws => step ws
  | n + 1, ws => do
    let (a, last) ← step ws
    if sense eq (last.drop 1) = connector then
      let (b, last) ← joined eq connector combine step n (last.drop 2)
      return (combine a b, last)
    else return (a, last)

def whole (eq : Bool) (t : FileTree) (directory : Text) : Nat → Step
  | 0, ws => .ok (false, ws)
  | n + 1, ws =>
    let part := negated eq (simple eq t directory (whole eq t directory n)) n
    joined eq .disjunction (· || ·) (joined eq .conjunction (· && ·) part n) n ws

/-- The words without brackets around all of them and without negations in front of them,
where so few words leave no doubt; and whether the result is to be negated. -/
def strip (eq : Bool) : Nat → Bool → List Text → Bool × List Text
  | 0, negate, ws => (negate, ws)
  | n + 1, negate, ws =>
    match ws with
    | [a, op, _] =>
      if (infixes eq).contains op then (negate, ws)
      else if a = "(".toList && ws.getLast? = some ")".toList then (negate, [op])
      else if a = "!".toList then strip eq n (!negate) (ws.drop 1)
      else (negate, ws)
    | [a, b, c, d] =>
      if a = "(".toList && d = ")".toList then (negate, [b, c])
      else if a = "!".toList then strip eq n (!negate) (ws.drop 1)
      else (negate, ws)
    | _ => (negate, ws)

def holds (eq : Bool) (t : FileTree) (directory : Text) (ws : List Text) : Except Complaint Bool :=
  let (negate, ws) := strip eq 8 false ws
  if ws.isEmpty then .ok false
  else
    let isComparison := match ws with
      | [_, op, _] => (infixes eq).contains op
      | _ => false
    if isComparison then
      match ws with
      | [a, op, b] => do return (← checkBetween t directory a op b) != negate
      | _ => .ok false
    else do
      let (value, last) ← whole eq t directory (ws.length + 2) ws
      match last with
      | w :: next :: _ => .error (.unexpectedOperator w next)
      | _ => return value != negate

end Condition

end Shell
end TypedCommand
