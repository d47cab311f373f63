import TypedCommand.Number.Binary64

/-!
Decimal numbers `digits · 10 ^ exponent`, the number they round to, and the decimal
with the fewest digits that reads back as a given number. Texts of numbers are read
here: plain digits with a point and an exponent, and the names of the special values.
-/

namespace TypedCommand

structure Decimal where
  digits : Nat
  exponent : Int
deriving DecidableEq

namespace Decimal

/-- The floating-point number nearest to a decimal. A decimal outside of
`10 ^ -330 … 10 ^ 310` is decided by its order of magnitude alone, so that a great
exponent costs nothing. -/
def toBinary64 (negative : Bool) (d : Decimal) : Binary64 :=
  let order : Int := (Text.ofNat d.digits).length + d.exponent
  if d.digits = 0 ∨ order < -330 then Binary64.zero negative
  else if 310 < order then Binary64.infinity negative
  else Binary64.nearest negative (d.digits * Nat.pow 10 d.exponent.toNat)
    (Nat.pow 10 (-d.exponent).toNat)

/-- The exact value of a finite number: a power of two in the denominator is a power of
five in the digits. -/
def exact (x : Binary64) : Decimal :=
  ⟨x.significand * Nat.pow 2 x.scale.toNat * Nat.pow 5 (-x.scale).toNat, -(-x.scale).toNat⟩

/-- The number of zeros that a value below one has directly behind the point, searched
up to a bound. -/
def leadingZeros : Nat → Nat → Nat → Nat
  | 0, _, _ => 0
  | bound + 1, num, den => if den ≤ num * 10 then 0 else leadingZeros bound (num * 10) den + 1

/-- The number of digits before the point; for a value below one, minus the number of
zeros behind it. -/
def order (num den : Nat) : Int :=
  if den ≤ num then (Text.ofNat (num / den)).length else -(leadingZeros 400 num den : Int)

/-- Of the two decimals with `count` digits around the absolute value of `x`, the one
that reads back as `x`; if both do the nearer, and the greater at equal distance. -/
def withDigits? (x : Binary64) (count : Nat) : Option Decimal :=
  let (num, den) := x.ratio
  let exponent := order num den - count
  let top := num * Nat.pow 10 (-exponent).toNat
  let bottom := den * Nat.pow 10 exponent.toNat
  let lower : Decimal := ⟨top / bottom, exponent⟩
  let upper : Decimal := ⟨top / bottom + 1, exponent⟩
  let readsBack (d : Decimal) : Bool := d.toBinary64 x.negative == x
  match readsBack lower, readsBack upper with
  | true, true => some (if 2 * (top % bottom) < bottom then lower else upper)
  | true, false => some lower
  | false, true => some upper
  | false, false => none

/-- The decimal with the fewest digits that reads back as a finite number. Seventeen
always suffice; the exact value stands in where the search would find none. -/
def shortest (x : Binary64) : Decimal :=
  ((List.range 17).findSome? (fun i => withDigits? x (i + 1))).getD (exact x)

/-- The digits without an exponent: zeros fill the places up to the point, and a
fraction ends with its last digit other than zero. -/
def positional (d : Decimal) : Text :=
  let digits := Text.ofNat d.digits
  if 0 ≤ d.exponent then digits ++ List.replicate d.exponent.toNat '0'
  else
    let places := (-d.exponent).toNat
    let filled := List.replicate (places + 1 - digits.length) '0' ++ digits
    let whole := filled.take (filled.length - places)
    let fraction := Text.trimEnd (· == '0') (filled.drop (filled.length - places))
    if fraction.isEmpty then whole else whole ++ '.' :: fraction

def readExponent? : Text → Option Int
  | [] => some 0
  | c :: rest =>
    if c == 'e' || c == 'E' then
      let (negative, digits) := Text.splitSign rest
      if !Text.isDigits digits then none
      else some (if negative then -(Text.digitsValue digits : Int) else Text.digitsValue digits)
    else none

/-- A decimal without a sign: digits around an optional point, at least one of them,
and an optional exponent. -/
def read? (t : Text) : Option Decimal :=
  let whole := t.takeWhile Char.isDigit
  let rest := t.dropWhile Char.isDigit
  let (fraction, rest) := match rest with
    | '.' :: r => (r.takeWhile Char.isDigit, r.dropWhile Char.isDigit)
    | r => ([], r)
  if whole.isEmpty && fraction.isEmpty then none
  else (readExponent? rest).map fun e =>
    ⟨Text.digitsValue (whole ++ fraction), e - fraction.length⟩

end Decimal

/-- A floating-point number: an optional sign, then a decimal or, in upper or lower
case, the name of infinity or of the value that is not a number. -/
def Text.toBinary64? (t : Text) : Option Binary64 :=
  let (negative, body) := splitSign t
  let name := body.map Char.toLower
  if name = "inf".toList ∨ name = "infinity".toList then some (Binary64.infinity negative)
  else if name = "nan".toList then some (Binary64.notANumber negative)
  else (Decimal.read? body).map (Decimal.toBinary64 negative)

end TypedCommand
