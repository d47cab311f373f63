import TypedCommand.Shell.Command

/-!
Numbers computed from a text: integers of 64 bits under the usual operators, variables, and
assignments. An operand is computed only where its value counts, so that a
choice assigns on one side alone.
-/

namespace TypedCommand

namespace Shell

namespace Arithmetic

inductive Fault
  | primaryExpected
  | endExpected
  | bracketExpected
  | colonExpected
  | divisionByZero
  | illegalNumber (text : Text)

inductive Token
  | number (n : Int64)
  | name (text : Text)
  | operator (text : Text)
  | stray
deriving DecidableEq

def saturate (negative : Bool) (n : Nat) : Int64 :=
  if negative then Int64.ofInt (max (-(n : Int)) (-0x8000000000000000))
  else Int64.ofInt (min n 0x7FFFFFFFFFFFFFFF)

def hexDigit? (c : Char) : Option Nat :=
  if c.isDigit then some (c.toNat - '0'.toNat)
  else if 'a' ≤ c && c ≤ 'f' then some (c.toNat - 'a'.toNat + 10)
  else if 'A' ≤ c && c ≤ 'F' then some (c.toNat - 'A'.toNat + 10)
  else none

def valueIn (base : Nat) (digits : Text) : Nat :=
  digits.foldl (fun n c => n * base + (hexDigit? c).getD 0) 0

/-- A number at the front of a text, and what follows: in octal digits behind a zero, in
hexadecimal ones behind a zero and an x, in binary ones behind a zero and a b. -/
def takeNumber (t : Text) : Nat × Text :=
  let isOctal (c : Char) : Bool := '0' ≤ c && c ≤ '7'
  let isHex (c : Char) : Bool := (hexDigit? c).isSome
  let isBinary (c : Char) : Bool := c == '0' || c == '1'
  match t with
  | '0' :: x :: rest =>
    if (x = 'x' || x = 'X') && rest.head?.any isHex then
      (valueIn 16 (rest.takeWhile isHex), rest.dropWhile isHex)
    else if (x = 'b' || x = 'B') && rest.head?.any isBinary then
      (valueIn 2 (rest.takeWhile isBinary), rest.dropWhile isBinary)
    else (valueIn 8 ((x :: rest).takeWhile isOctal), (x :: rest).dropWhile isOctal)
  | t => (valueIn 10 (t.takeWhile Char.isDigit), t.dropWhile Char.isDigit)

def operators (dialect : Dialect) : List Text :=
  ((if dialect = .extended then ["**", "++", "--"] else []) ++
    ["<<=", ">>=", "<<", ">>", "<=", ">=", "==", "!=", "&&", "||", "+=", "-=", "*=", "/=", "%=",
      "&=", "|=", "^=", "+", "-", "*", "/", "%", "<", ">", "=", "!", "~", "&", "|", "^", "?", ":",
      "(", ")"] ++
    if dialect = .extended then [","] else []).map String.toList

def tokens (dialect : Dialect) : Nat → Text → List Token
  | 0, _ => []
  | _, [] => []
  | n + 1, c :: rest =>
    if c = ' ' || c = '\t' || c = '\n' then tokens dialect n rest
    else if c.isDigit then
      let (value, rest) := takeNumber (c :: rest)
      .number (saturate false value) :: tokens dialect n rest
    else if isName [c] then
      let name := (c :: rest).takeWhile Text.isIdentifierChar
      .name name :: tokens dialect n ((c :: rest).drop name.length)
    else match (operators dialect).find? (·.isPrefixOf (c :: rest)) with
      | some op => .operator op :: tokens dialect n ((c :: rest).drop op.length)
      | none => [.stray]

inductive Expression
  | number (n : Int64)
  | name (name : Text)
  | unary (op : Char) (e : Expression)
  | binary (op : Text) (a b : Expression)
  | both (a b : Expression)
  | either (a b : Expression)
  | choice (a b c : Expression)
  | assign (name : Text) (op : Text) (e : Expression)
  | later (name : Text) (op : Text)
  | sequence (a b : Expression)

def precedence? (op : Text) : Option Nat :=
  [("**", 1), ("*", 2), ("/", 2), ("%", 2), ("+", 3), ("-", 3), ("<<", 4), (">>", 4), ("<", 5),
    ("<=", 5), (">", 5), (">=", 5), ("==", 6), ("!=", 6), ("&", 7), ("^", 8), ("|", 9)].findSome?
    fun (name, p) => if name.toList = op then some p else none

abbrev Result := Except Fault (Expression × List Token)

def operator? : List Token → Option Text
  | .operator op :: _ => some op
  | _ => none

def assignment? (op : Text) : Option Text :=
  ["=", "+=", "-=", "*=", "/=", "%=", "&=", "|=", "^=", "<<=", ">>="].findSome? fun name =>
    if name.toList = op then some op.dropLast else none

/-- A number, a variable, an operand with a sign, or an expression in brackets; `whole`
reads the latter. -/
def primary (whole : List Token → Result) : List Token → Result
  | .number n :: rest => .ok (.number n, rest)
  | .name x :: .operator op :: rest =>
    if op = "++".toList ∨ op = "--".toList then .ok (.later x (op.take 1), rest)
    else .ok (.name x, .operator op :: rest)
  | .name x :: rest => .ok (.name x, rest)
  | .operator op :: rest =>
    if op = ['('] then do
      let (e, rest) ← whole rest
      match rest with
      | .operator [')'] :: rest => return (e, rest)
      | _ => .error .bracketExpected
    else if op = "++".toList ∨ op = "--".toList then
      match rest with
      | .name x :: rest => .ok (.assign x (op.take 1) (.number 1), rest)
      | _ => .error .primaryExpected
    else match op with
      | [c] =>
        if c = '+' || c = '-' || c = '!' || c = '~' then do
          let (e, rest) ← primary whole rest
          return (.unary c e, rest)
        else .error .primaryExpected
      | _ => .error .primaryExpected
  | _ => .error .primaryExpected

/-- Operands joined by operators that bind more tightly than a number, behind a first
operand; at most so many. -/
def joined (whole : List Token → Result) : Nat → Nat → Expression → List Token → Result
  | 0, _, a, ts => .ok (a, ts)
  | n + 1, bound, a, ts =>
    match operator? ts with
    | none => .ok (a, ts)
    | some op => match precedence? op with
      | none => .ok (a, ts)
      | some p =>
        if bound ≤ p then .ok (a, ts)
        else do
          let (b, rest) ← primary whole (ts.drop 1)
          let (b, rest) ← joined whole n p b rest
          joined whole n bound (.binary op a b) rest

def logical (operand : List Token → Result) (op : Text)
    (join : Expression → Expression → Expression) : Nat → List Token → Result
  | 0, ts => operand ts
  | n + 1, ts => do
    let (a, rest) ← operand ts
    if operator? rest = some op then
      let (b, rest) ← logical operand op join n (rest.drop 1)
      return (join a b, rest)
    else return (a, rest)

def conditional (whole : List Token → Result) (n : Nat) : Nat → List Token → Result
  | 0, _ => .error .primaryExpected
  | turns + 1, ts => do
    let operand (ts : List Token) : Result := do
      let (a, rest) ← primary whole ts
      joined whole n 10 a rest
    let all := logical operand "&&" .both n
    let (a, rest) ← logical all "||" .either n ts
    if operator? rest = some ['?'] then
      let (b, rest) ← whole (rest.drop 1)
      if operator? rest = some [':'] then
        let (c, rest) ← conditional whole n turns (rest.drop 1)
        return (.choice a b c, rest)
      else .error .colonExpected
    else return (a, rest)

def expression (n : Nat) : Nat → List Token → Result
  | 0, _ => .error .primaryExpected
  | depth + 1, ts =>
    let assigned := match ts with
      | .name x :: .operator op :: rest => (assignment? op).map fun op => (x, op, rest)
      | _ => none
    match assigned with
    | some (x, op, rest) => do
      let (e, rest) ← expression n depth rest
      return (.assign x op e, rest)
    | none => conditional (expression n depth) n n ts

def series (n : Nat) : Nat → List Token → Result
  | 0, _ => .error .primaryExpected
  | turns + 1, ts => do
    let (a, rest) ← expression n n ts
    if operator? rest = some [','] then
      let (b, rest) ← series n turns (rest.drop 1)
      return (.sequence a b, rest)
    else return (a, rest)

def read (dialect : Dialect) (t : Text) : Except Fault Expression := do
  let ts := tokens dialect (t.length + 1) t
  let (e, rest) ← series (ts.length + 2) (ts.length + 2) ts
  if rest.isEmpty then return e else .error .endExpected

abbrev Compute := StateT (List (Text × Text)) (Except Fault)

def valueOf (look : Text → Option Text) (name : Text) : Compute Int64 := do
  let t := match (← get).lookup name with
    | some t => t
    | none => (look name).getD []
  let isSpace (c : Char) : Bool := c == ' ' || (9 ≤ c.toNat && c.toNat ≤ 13)
  let body := t.dropWhile isSpace
  let (negative, digits) := Text.splitSign body
  if body.isEmpty then return 0
  else
    let (n, rest) := takeNumber digits
    if digits.head?.any Char.isDigit && (rest.dropWhile isSpace).isEmpty then
      return saturate negative n
    else throw (.illegalNumber t)

def ofBool (b : Bool) : Int64 := if b then 1 else 0

def power (a : Int64) (n : Nat) : Int64 := (List.replicate n a).foldl (· * ·) 1

def apply (op : Text) (a b : Int64) : Compute Int64 :=
  match String.ofList op with
  | "+" => pure (a + b)
  | "-" => pure (a - b)
  | "*" => pure (a * b)
  | "/" => if b = 0 then throw .divisionByZero else pure (a / b)
  | "%" => if b = 0 then throw .divisionByZero else pure (a % b)
  | "<<" => pure (a <<< b)
  | ">>" => pure (a >>> b)
  | "<" => pure (ofBool (a < b))
  | "<=" => pure (ofBool (a ≤ b))
  | ">" => pure (ofBool (b < a))
  | ">=" => pure (ofBool (b ≤ a))
  | "==" => pure (ofBool (a = b))
  | "!=" => pure (ofBool (a ≠ b))
  | "&" => pure (a &&& b)
  | "^" => pure (a ^^^ b)
  | "|" => pure (a ||| b)
  | "**" => pure (power a b.toNatClampNeg)
  | _ => pure b

def assigned (name : Text) (n : Int64) : Compute Unit :=
  modify fun s => (name, Text.ofInt n.toInt) :: s.filter (fun e => e.1 != name)

def Expression.value (look : Text → Option Text) : Expression → Compute Int64
  | .number n => pure n
  | .name x => valueOf look x
  | .unary op e => do
    let n ← e.value look
    return if op = '-' then 0 - n
      else if op = '!' then ofBool (n = 0)
      else if op = '~' then ~~~n
      else n
  | .binary op a b => do
    let a ← a.value look
    apply op a (← b.value look)
  | .both a b => do
    if (← a.value look) = 0 then return 0
    else return ofBool ((← b.value look) ≠ 0)
  | .either a b => do
    if (← a.value look) ≠ 0 then return 1
    else return ofBool ((← b.value look) ≠ 0)
  | .choice a b c => do
    if (← a.value look) ≠ 0 then b.value look else c.value look
  | .assign x op e => do
    let n ← e.value look
    let n ← if op.isEmpty then pure n else do apply op (← valueOf look x) n
    assigned x n
    return n
  | .later x op => do
    let n ← valueOf look x
    assigned x (← apply op n 1)
    return n
  | .sequence a b => do
    let _ ← a.value look
    b.value look

def compute (dialect : Dialect) (look : Text → Option Text) (t : Text) :
    Except Fault (Int64 × List (Text × Text)) := do
  let e ← read dialect t
  (e.value look).run []

end Arithmetic

end Shell
end TypedCommand
