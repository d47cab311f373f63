import TypedCommand.Regex
import TypedCommand.Tool.Call

/-!
Expressions over words: connectives, comparisons, arithmetic on integers of any size, and
texts matched by patterns. Each level of precedence reads operands of the next one with the
operators between them. A part whose value cannot count is read, but not worked out.
-/

namespace TypedCommand

namespace Tool

namespace Expression

/-- A value: an integer that has been worked out, or a text. -/
inductive Value
  | integer (n : Int)
  | text (t : Text)

inductive Fault
  | argumentMissing (word : Text)
  | argumentUnexpected (word : Text)
  | closingMissing (word : Text)
  | closingExpected (word : Text)
  | closingUnexpected
  | notInteger
  | divisionByZero
  | pattern (fault : Regex.Fault)

def Fault.text : Fault → Text
  | argumentMissing w => "syntax error: missing argument after " ++ w.inQuotes
  | argumentUnexpected w => "syntax error: unexpected argument " ++ w.inQuotes
  | closingMissing w => "syntax error: expecting ')' after " ++ w.inQuotes
  | closingExpected w => "syntax error: expecting ')' instead of " ++ w.inQuotes
  | closingUnexpected => "syntax error: unexpected ')'"
  | notInteger => "non-integer argument"
  | divisionByZero => "division by zero"
  | pattern e => e.text

namespace Value

def shown : Value → Text
  | integer n => Text.ofInt n
  | text t => t

def integerOf? (t : Text) : Option Int :=
  match t with
  | '-' :: digits => if Text.isDigits digits then some (-(Text.digitsValue digits : Int)) else none
  | digits => if Text.isDigits digits then some (Text.digitsValue digits) else none

def integer? : Value → Option Int
  | integer n => some n
  | text t => integerOf? t

def isNull : Value → Bool
  | integer n => n == 0
  | text t => match t with
    | [] => true
    | ['-'] => false
    | '-' :: rest => rest.all (· == '0')
    | rest => rest.all (· == '0')

def ofBool (b : Bool) : Value := integer (if b then 1 else 0)

end Value

structure Source where
  rest : List Text
  last : Text := []

abbrev Read := StateT Source (Except Fault)

namespace Read

def fail {α : Type} (e : Fault) : Read α := throw e

def word : Read Text := do
  let s ← get
  match s.rest with
  | [] => fail (.argumentMissing s.last)
  | w :: rest =>
    set { s with rest, last := w }
    return w

def oneOf? (words : List Text) : Read (Option Text) := do
  match (← get).rest with
  | w :: _ => if words.contains w then return some (← word) else return none
  | [] => return none

end Read

open Read

def operand (counts : Bool) (v : Value) : Read Int := do
  match v.integer? with
  | some n => return n
  | none => if counts then fail .notInteger else return 0

/-- A text matched by a pattern from its front on: the text of its first group, or the number
of characters matched. -/
def matched (t pattern : Text) : Except Fault Value := do
  let r ← (Regex.read .basic pattern).mapError .pattern
  let found := Regex.matchAt? { text := t } r ⟨none, t, 0, []⟩
  if 0 < r.groupCount then return .text ((found.map (·.groupText 1 t)).getD [])
  else return .integer ((found.map (·.last)).getD 0)

/-- A part of a text, by the place of its first character, counted from one, and its length. -/
def part (t : Text) (first length : Option Int) : Text :=
  match first, length with
  | some f, some l => if f < 1 ∨ l < 1 then [] else (t.drop (f.toNat - 1)).take l.toNat
  | _, _ => []

def primary (whole : Bool → Read Value) (inner : Bool → Read Value) (counts : Bool) : Read Value := do
  match ← oneOf? (["+", "length", "match", "index", "substr", "(", ")"].map String.toList) with
  | none => return .text (← word)
  | some w => match String.ofList w with
    | "+" => return .text (← word)
    | "length" => return .integer (← inner counts).shown.length
    | "match" =>
      let t ← inner counts
      let pattern ← inner counts
      if counts then match matched t.shown pattern.shown with
        | .ok v => return v
        | .error e => fail e
      else return t
    | "index" =>
      let t ← inner counts
      let marks ← inner counts
      let place : Nat := match t.shown.findIdx? marks.shown.contains with
        | some i => i + 1
        | none => 0
      return .integer place
    | "substr" =>
      let t ← inner counts
      let first ← inner counts
      let length ← inner counts
      return .text (part t.shown first.integer? length.integer?)
    | ")" => fail .closingUnexpected
    | _ =>
      let v ← whole counts
      let s ← get
      match s.rest with
      | [')'] :: _ =>
        let _ ← word
        return v
      | [] => fail (.closingMissing s.last)
      | w :: _ => fail (.closingExpected w)

def chain (operators : List Text) (combine : Text → Value → Read Value) :
    Nat → Value → Read Value
  | 0, v => return v
  | n + 1, v => do
    match ← oneOf? operators with
    | none => return v
    | some operator => chain operators combine n (← combine operator v)

def matching (part : Bool → Read Value) (counts : Bool) (_ : Text) (v : Value) : Read Value := do
  let pattern ← part counts
  if counts then match matched v.shown pattern.shown with
    | .ok v => return v
    | .error e => fail e
  else return v

def multiplied (part : Bool → Read Value) (counts : Bool) (operator : Text) (v : Value) :
    Read Value := do
  let w ← part counts
  let a ← operand counts v
  let b ← operand counts w
  if operator = ['*'] then return .integer (a * b)
  else if b = 0 then (if counts then fail .divisionByZero else return v)
  else return .integer (if operator = ['/'] then a.tdiv b else a.tmod b)

def added (part : Bool → Read Value) (counts : Bool) (operator : Text) (v : Value) :
    Read Value := do
  let w ← part counts
  let a ← operand counts v
  let b ← operand counts w
  return .integer (if operator = ['+'] then a + b else a - b)

def compared (part : Bool → Read Value) (counts : Bool) (operator : Text) (v : Value) :
    Read Value := do
  let w ← part counts
  let order : Ordering := match v.integer?, w.integer? with
    | some a, some b => compare a b
    | _, _ => if v.shown < w.shown then .lt else if v.shown = w.shown then .eq else .gt
  return .ofBool (match String.ofList operator with
    | "<" => order == .lt
    | "<=" => order != .gt
    | "=" => order == .eq
    | "==" => order == .eq
    | "!=" => order != .eq
    | ">=" => order != .lt
    | _ => order == .gt)

def both (part : Bool → Read Value) (counts : Bool) (_ : Text) (v : Value) : Read Value := do
  let w ← part (counts && !v.isNull)
  return if v.isNull || w.isNull then .integer 0 else v

def either (part : Bool → Read Value) (counts : Bool) (_ : Text) (v : Value) : Read Value := do
  let w ← part (counts && v.isNull)
  return if !v.isNull then v else if !w.isNull then w else .integer 0

def level (operators : List String)
    (combine : (Bool → Read Value) → Bool → Text → Value → Read Value)
    (part : Bool → Read Value) (counts : Bool) : Read Value := do
  let first ← part counts
  chain (operators.map String.toList) (combine part counts) (← get).rest.length first

def levels (closest : Bool → Read Value) : Bool → Read Value :=
  let comparisons := ["<", "<=", "=", "==", "!=", ">=", ">"]
  level ["|"] either (level ["&"] both (level comparisons compared (level ["+", "-"] added
    (level ["*", "/", "%"] multiplied (level [":"] matching closest)))))

def closest : Nat → Bool → Read Value
  | 0, _ => return .integer 0
  | n + 1, counts => primary (levels (closest n)) (closest n) counts

def value (words : List Text) : Except Fault Value := do
  let (v, s) ← (levels (closest (words.length + 1)) true).run { rest := words }
  match s.rest with
  | [] => return v
  | w :: _ => throw (.argumentUnexpected w)

end Expression

def expr (c : Call) : Reply :=
  let words := if c.arguments.head? = some "--".toList then c.arguments.drop 1 else c.arguments
  if words.isEmpty then c.misused "missing operand" 2
  else match Expression.value words with
    | .ok v => { printed := [(1, v.shown ++ ['\n'])], status := if v.isNull then 1 else 0 }
    | .error e => Reply.failed (c.name ++ ": " ++ e.text) 2

end Tool
end TypedCommand
