import TypedCommand.Text

/-!
Signed integers of 64 bits in decimal: an optional sign, then ASCII digits with any
number of leading zeros. A text whose value leaves the range is not a number.
-/

namespace TypedCommand

namespace Text

def isDigits (t : Text) : Bool := !t.isEmpty && t.all Char.isDigit

def digitsValue (t : Text) : Nat := Nat.ofDigitChars 10 t 0

def ofNat (n : Nat) : Text := Nat.toDigits 10 n

def splitSign : Text → Bool × Text
  | '-' :: rest => (true, rest)
  | '+' :: rest => (false, rest)
  | t => (false, t)

def isInt64 (n : Int) : Bool := -0x8000000000000000 ≤ n && n < 0x8000000000000000

def toInt64? (t : Text) : Option Int64 :=
  let (negative, digits) := splitSign t
  if !isDigits digits then none
  else
    let n : Int := if negative then -(digitsValue digits : Int) else digitsValue digits
    if isInt64 n then some (Int64.ofInt n) else none

def ofInt (n : Int) : Text :=
  if n < 0 then '-' :: ofNat n.natAbs else ofNat n.natAbs

end Text
end TypedCommand
