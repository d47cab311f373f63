import TypedCommand.Shell.Format
import TypedCommand.Tool.Call

/-!
Sequences of numbers, and the prime factors of numbers. A number with a fraction is kept as
a whole number of units of its last place, so that steps add up exactly.
-/

namespace TypedCommand

namespace Tool

open Shell (Format.Directive)

/-- A decimal: so many units, each of which is ten to the power of minus `places`, and how
many characters it takes when all places are shown. -/
structure Decimals where
  units : Int
  places : Nat
  width : Nat

def Decimals.endless : Decimals := ⟨(Nat.pow 10 40 : Nat), 0, 3⟩

def Decimals.read? (t : Text) : Option Decimals :=
  if ["inf", "infinity"].contains (String.ofList (t.map Char.toLower)) then some endless else
  let t := t.dropWhile fun c => Text.isBlank c || c == '+'
  let (negative, body) := match t with
    | '-' :: rest => (true, rest)
    | _ => (false, t)
  if body.isEmpty || Shell.Format.decimalLength body ≠ body.length then none
  else
    let whole := body.takeWhile Char.isDigit
    let rest := body.drop whole.length
    let hasPoint := rest.head? == some '.'
    let fraction := if hasPoint then (rest.drop 1).takeWhile Char.isDigit else []
    let mark := rest.drop (if hasPoint then fraction.length + 1 else 0)
    let (below, digits) := Text.splitSign (mark.drop 1)
    let power := Text.digitsValue digits
    let shown := body.length - mark.length - (if hasPoint && fraction.isEmpty then 1 else 0) +
      (if hasPoint && whole.isEmpty then 1 else 0) + (if negative then 1 else 0)
    let value : Int := Text.digitsValue (whole ++ fraction)
    let signed := if negative then -value else value
    if mark.isEmpty then some ⟨signed, fraction.length, shown⟩
    else if below then some ⟨signed, fraction.length + power,
      shown + power + (if hasPoint && !fraction.isEmpty then 0 else 1)⟩
    else if power < fraction.length then some ⟨signed, fraction.length - power, shown⟩
    else some ⟨signed * (Nat.pow 10 (power - fraction.length) : Nat), 0,
      shown + (power - fraction.length) - (if fraction.isEmpty then 0 else 1)⟩

def Decimals.unitsAt (d : Decimals) (places : Nat) : Int :=
  d.units * (Nat.pow 10 (places - d.places) : Nat)

/-- A number of units with so many of its digits behind the point, filled with zeros up to a
width. -/
def showUnits (width places : Nat) (n : Int) : Text :=
  let d : Format.Directive := { zeroFilled := true, width }
  d.number true (n < 0) [] (Format.Directive.fixedDigits false places n.natAbs (Nat.pow 10 places))

/-- The first number, the step and the last one of a progression. -/
structure Progression where
  first : Decimals
  step : Decimals
  last : Decimals

namespace Progression

def places (p : Progression) : Nat := max p.first.places p.step.places

/-- The numbers in units of the last place that any of the three has, so many at most. -/
def terms (p : Progression) (most : Option Nat) : List Int × Nat :=
  let scale := max p.places p.last.places
  let first := p.first.unitsAt scale
  let step := p.step.unitsAt scale
  let last := p.last.unitsAt scale
  let count : Nat :=
    if 0 < step then (if last < first then 0 else (((last - first) / step).toNat + 1))
    else if first < last then 0
    else ((first - last) / (-step)).toNat + 1
  ((List.range ((most.map (min count)).getD count)).map fun (i : Nat) => first + (i : Int) * step, scale)

def width (p : Progression) : Nat :=
  let point (d : Decimals) : Nat := if d.places = 0 && 0 < p.places then 1 else 0
  let first := p.first.width + (p.places - p.first.places) + point p.first
  let last := p.last.width + p.places - p.last.places + point p.last -
    (if 0 < p.last.places && p.places = 0 then 1 else 0)
  max first last

end Progression

/-- A format with one directive for a number: what comes before it, the directive with its
letter, and what follows. -/
structure NumberFormat where
  before : Text
  directive : Shell.Format.Directive
  letter : Char
  after : Text

/-- A text in which a doubled percent sign stands for one, up to a single one, and what
follows that one. -/
def upToPercent : Text → Text × Option Text
  | [] => ([], none)
  | '%' :: '%' :: rest =>
    let (t, found) := upToPercent rest
    ('%' :: t, found)
  | '%' :: rest => ([], some rest)
  | c :: rest =>
    let (t, found) := upToPercent rest
    (c :: t, found)

def NumberFormat.read (t : Text) : Except Text NumberFormat :=
  let named : Text := "format ".toList ++ Text.inQuotes t
  match upToPercent t with
  | (_, none) => .error (named ++ " has no % directive")
  | (before, some rest) =>
    let (directive, rest, _) := Shell.Format.readDirective rest []
    let rest := if rest.head? = some 'L' then rest.drop 1 else rest
    match rest with
    | [] => .error (named ++ " ends in %")
    | letter :: rest =>
      if !"aefgAEFG".toList.contains letter then
        .error (named ++ " has unknown %" ++ letter :: " directive".toList)
      else match upToPercent rest with
        | (after, none) => .ok { before, directive, letter, after }
        | (_, some _) => .error (named ++ " has too many % directives")

def NumberFormat.print (f : NumberFormat) (scale : Nat) (n : Int) : Text :=
  let x := Binary64.nearest (decide (n < 0)) n.natAbs (Nat.pow 10 scale)
  f.before ++ f.directive.floating f.letter x ++ f.after

def isNegativeNumber : Text → Bool
  | '-' :: c :: _ => c.isDigit || c == '.'
  | _ => false

def seq (c : Call) : Reply :=
  let forms := [valued 'f' "format", valued 's' "separator", flag 'w' "equal-width"]

  -- A number with a sign is no option, nor is anything behind it.
  let options := c.arguments.takeWhile fun w => !isNegativeNumber w
  let run (o : Options) : Reply :=
    let operands := o.operands ++ c.arguments.drop options.length
    match operands with
    | [] => c.misused "missing operand"
    | _ :: _ :: _ :: extra :: _ => c.misused ("extra operand " ++ Text.inQuotes extra)
    | _ =>
      match operands.find? fun w => (Decimals.read? w).isNone with
      | some bad =>
        if bad.map Char.toLower = "nan".toList then
          c.misused ("invalid 'not-a-number' argument: " ++ Text.inQuotes bad)
        else c.misused ("invalid floating point argument: " ++ Text.inQuotes bad)
      | none =>
        let one : Decimals := ⟨1, 0, 1⟩
        let p : Progression := match operands.filterMap Decimals.read? with
          | [last] => ⟨one, one, last⟩
          | [first, last] => ⟨first, one, last⟩
          | first :: step :: last :: _ => ⟨first, step, last⟩
          | [] => ⟨one, one, one⟩
        if p.step.units = 0 then
          c.misused ("invalid Zero increment value: " ++ Text.inQuotes (operands.getD 1 []))
        else
          -- Each number takes a character at least.
          let (terms, scale) := p.terms (c.room.map (· + 2))
          let format := (o.value? 'f').map NumberFormat.read
          match format with
          | some (.error said) => Reply.failed (c.name ++ ": " ++ said)
          | _ =>
            if format.isSome && o.has 'w' then
              c.misused "format string may not be specified when printing equal width strings"
            else
              let shown (n : Int) : Text := match format with
                | some (.ok f) => f.print scale n
                | _ => showUnits (if o.has 'w' then p.width else 0) p.places
                    (n.tdiv (Nat.pow 10 (scale - p.places) : Nat))
              let separator := (o.value? 's').getD ['\n']
              .ofText (if terms.isEmpty then []
                else separator.intercalate (terms.map shown) ++ ['\n'])
  { c with arguments := options }.withOptions forms run 1 false

/-- The prime factors of a number from a divisor on, so many steps at most. -/
def factorsFrom : Nat → Nat → Nat → List Nat
  | 0, _, n => if n ≤ 1 then [] else [n]
  | fuel + 1, d, n =>
    if n ≤ 1 then []
    else if n < d * d then [n]
    else if n % d = 0 then d :: factorsFrom fuel d (n / d)
    else factorsFrom fuel (if d = 2 then 3 else d + 2) n

def factor (c : Call) : Reply :=
  c.withOptions [flag 'h' "exponents"] fun o =>
    let words := if o.operands.isEmpty then Text.words c.input else o.operands
    let one (w : Text) : Nat × Text :=
      let digits := if w.head? = some '+' then w.drop 1 else w
      match natural? digits with
      | some n => (1, Text.ofNat n ++ ':' ::
          (factorsFrom 4000000 2 n).flatMap (fun p => ' ' :: Text.ofNat p) ++ ['\n'])
      | none => (2, c.message (Text.inQuotes w ++ " is not a valid positive integer"))
    let printed := words.map one
    { printed, status := if printed.any (·.1 == 2) then 1 else 0, readsInput := o.operands.isEmpty }

end Tool
end TypedCommand
