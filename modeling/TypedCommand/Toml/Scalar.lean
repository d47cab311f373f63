import TypedCommand.Number.Decimal
import TypedCommand.Toml.DateTime
import TypedCommand.Toml.Quoted

/-!
The single values of a TOML document: strings, integers, numbers, truth values, dates
and times. All but the strings are read from one unbroken stretch of characters.
-/

namespace TypedCommand

namespace Toml

/-- A single value. Of a date or time only its presence is kept, and so it is of a
number out of range: an integer of more than 128 bits or a decimal greater than any
finite number, which may stand in a document but not where a value is looked at. -/
inductive Scalar
  | string (text : Text)
  | integer (number : Int)
  | float (number : Binary64)
  | boolean (truth : Bool)
  | dateTime
  | outOfRange
deriving DecidableEq

def Scalar.isReadable : Scalar → Bool
  | outOfRange => false
  | _ => true

/-- A value that can be looked at and, if it is an integer, has 64 bits at most, with or
without a sign. -/
def Scalar.isNarrow : Scalar → Bool
  | outOfRange => false
  | integer n => -0x8000000000000000 ≤ n && n < 0x10000000000000000
  | _ => true

def ungroup? (isDigit : Char → Bool) (t : Text) : Option Text :=
  let groups := t.splitOn '_'
  if groups.all (fun g => !g.isEmpty && g.all isDigit) then some groups.flatten else none

def wholeDigits? (t : Text) : Option Text :=
  match ungroup? Char.isDigit t with
  | some digits => if digits.length = 1 ∨ digits.head? ≠ some '0' then some digits else none
  | none => none

def toInteger? (t : Text) : Option Int :=
  match t with
  | '0' :: 'x' :: rest => (ungroup? isHexDigit rest).map fun ds => (valueIn 16 ds : Int)
  | '0' :: 'o' :: rest =>
    (ungroup? (fun c => '0' ≤ c && c ≤ '7') rest).map fun ds => (valueIn 8 ds : Int)
  | '0' :: 'b' :: rest =>
    (ungroup? (fun c => c == '0' || c == '1') rest).map fun ds => (valueIn 2 ds : Int)
  | _ =>
    let (negative, digits) := Text.splitSign t
    (wholeDigits? digits).map fun ds =>
      if negative then -(Text.digitsValue ds : Int) else Text.digitsValue ds

/-- The integers that a document can hold are those of 128 bits, signed or not. -/
def isIntegerInRange (n : Int) : Bool :=
  -0x80000000000000000000000000000000 ≤ n && n < 0x100000000000000000000000000000000

def plainExponent? : Text → Option Text
  | [] => some []
  | c :: rest =>
    if c == 'e' || c == 'E' then
      let (negative, digits) := Text.splitSign rest
      (ungroup? Char.isDigit digits).map fun ds => 'e' :: (if negative then '-' :: ds else ds)
    else none

/-- The part of a number behind its whole digits, without underscores: a point and
digits, an exponent, or both. -/
def plainTail? (t : Text) : Option Text :=
  match t with
  | '.' :: rest => do
    let isMark (c : Char) : Bool := c == 'e' || c == 'E'
    let fraction ← ungroup? Char.isDigit (rest.takeWhile (fun c => !isMark c))
    let exponent ← plainExponent? (rest.dropWhile (fun c => !isMark c))
    return '.' :: fraction ++ exponent
  | [] => none
  | _ => plainExponent? t

/-- A number with a point or an exponent, or the name of a special value in lower case. -/
def toFloat? (t : Text) : Option Scalar :=
  let (negative, body) := Text.splitSign t
  if body = "inf".toList then some (.float (Binary64.infinity negative))
  else if body = "nan".toList then some (.float (Binary64.notANumber negative))
  else
    let isWhole (c : Char) : Bool := c.isDigit || c == '_'
    match wholeDigits? (body.takeWhile isWhole), plainTail? (body.dropWhile isWhole) with
    | some whole, some tail => (Decimal.read? (whole ++ tail)).map fun d =>
      let x := d.toBinary64 negative
      if x.isInfinite then .outOfRange else .float x
    | _, _ => none

def isAtomChar (c : Char) : Bool := Text.isAlnum c || "_+-.:".toList.contains c

def Scalar.ofAtom? (t : Text) : Option Scalar :=
  if t = "true".toList then some (.boolean true)
  else if t = "false".toList then some (.boolean false)
  else match toInteger? t with
    | some n => some (if isIntegerInRange n then .integer n else .outOfRange)
    | none => match toFloat? t with
      | some x => some x
      | none => if isDateTime t then some .dateTime else none

/-- A value at the front of a text. One space can stand between a date and a time. -/
def Scalar.read (t : Text) : Option (Scalar × Text) :=
  if t.head? = some '"' ∨ t.head? = some '\'' then
    (readString t).map fun (value, rest) => (.string value, rest)
  else
    let atom := t.takeWhile isAtomChar
    let rest := t.dropWhile isAtomChar
    let time := (rest.drop 1).takeWhile isAtomChar
    if isDate atom ∧ rest.head? = some ' ' ∧ time.head?.any Char.isDigit then
      if isTimeWithOffset time then some (.dateTime, (rest.drop 1).dropWhile isAtomChar)
      else none
    else (Scalar.ofAtom? atom).map fun value => (value, rest)

/-- A number with a point: the fewest digits that read back, zeros up to the point, and
`.0` for a whole number. A value that is not a number has no sign. -/
def writeFloat (x : Binary64) : Text :=
  if x.isNaN then "nan".toList
  else (if x.negative then ['-'] else []) ++
    if x.isInfinite then "inf".toList
    else if x.isZero then "0.0".toList
    else if x.isIntegral then (Decimal.shortest x).positional ++ ".0"
    else (Decimal.shortest x).positional

/-- A single value as it is written; one of which only the presence is kept has no
written form. -/
def Scalar.write : Scalar → Text
  | string text => writeString text
  | integer n => Text.ofInt n
  | float x => writeFloat x
  | boolean true => "true"
  | boolean false => "false"
  | dateTime => []
  | outOfRange => []

end Toml
end TypedCommand
