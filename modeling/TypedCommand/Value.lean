import TypedCommand.Number.Decimal

/-!
The four kinds of parameter and their values. `Kind.read` turns the text of an
argument into a value of a kind, `Value.text` shows a value as it goes into a command.
-/

namespace TypedCommand

inductive Kind
  | str
  | int
  | float
  | bool
deriving DecidableEq, Inhabited

inductive Value
  | str (text : Text)
  | int (number : Int64)
  | float (number : Binary64)
  | bool (truth : Bool)
deriving DecidableEq

/-- A text that is no value of the kind it was read as. -/
structure ConversionFailure where
  text : Text
  kind : Kind
deriving DecidableEq

namespace Kind

def name : Kind → Text
  | str => "str"
  | int => "int"
  | float => "float"
  | bool => "bool"

def all : List Kind := [str, int, float, bool]

def ofName? (t : Text) : Option Kind := all.find? (fun k => k.name == t)

end Kind

/-- A truth value: `true`, `yes`, `1` or `false`, `no`, `0`, in upper or lower case. -/
def Text.toBool? (t : Text) : Option Bool :=
  let word := t.map Char.toLower
  if ["true".toList, "yes".toList, "1".toList].contains word then some true
  else if ["false".toList, "no".toList, "0".toList].contains word then some false
  else none

/-- The value that a text has as a given kind. Nothing is converted silently. -/
def Kind.read? (kind : Kind) (t : Text) : Option Value :=
  match kind with
  | str => some (.str t)
  | int => t.toInt64?.map .int
  | float => t.toBinary64?.map .float
  | bool => t.toBool?.map .bool

@[inherit_doc Kind.read?]
def Kind.read (kind : Kind) (t : Text) : Except ConversionFailure Value :=
  match kind.read? t with
  | some value => .ok value
  | none => .error ⟨t, kind⟩

/-- A number in a command: a whole number has all its digits and `.0`, any other the
fewest digits that read back, without an exponent. -/
def Binary64.text (x : Binary64) : Text :=
  if x.isNaN then "NaN".toList
  else (if x.negative then ['-'] else []) ++
    if x.isInfinite then "inf".toList
    else if x.isIntegral then Text.ofNat (x.ratio.1 / x.ratio.2) ++ ".0"
    else (Decimal.shortest x).positional

namespace Value

def kind : Value → Kind
  | str _ => .str
  | int _ => .int
  | float _ => .float
  | bool _ => .bool

def text : Value → Text
  | str t => t
  | int n => Text.ofInt n.toInt
  | float x => x.text
  | bool true => "true"
  | bool false => "false"

end Value

def ConversionFailure.message (f : ConversionFailure) : Text :=
  "No se pudo convertir " ++ f.text.inQuotes ++ " al tipo " ++ f.kind.name ++ "."

end TypedCommand
