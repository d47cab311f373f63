import TypedCommand.Number.Binary64

/-!
Arithmetic of binary floating-point numbers. A sum, a product and a quotient are worked out
as ratios and rounded once, so each is the number nearest to the exact result. What has no
result is not a number, with a minus.
-/

namespace TypedCommand

namespace Binary64

def undefined : Binary64 := notANumber true

def signedRatio (x : Binary64) : Int × Nat :=
  let (num, den) := x.ratio
  (if x.negative then -(num : Int) else num, den)

def ofRatio (negativeZero : Bool) (num : Int) (den : Nat) : Binary64 :=
  if num = 0 then zero negativeZero else nearest (num < 0) num.natAbs den

def ofNat (n : Nat) : Binary64 := nearest false n 1

def ofInt (n : Int) : Binary64 := ofRatio false n 1

def opposite (x : Binary64) : Binary64 := ofBits (x.toBits ^^^ 0x8000000000000000)

def truncated (x : Binary64) : Int := Int.tdiv x.signedRatio.1 x.signedRatio.2

def sum (x y : Binary64) : Binary64 :=
  if x.isNaN then x
  else if y.isNaN then y
  else if x.isInfinite then
    if y.isInfinite && x.negative != y.negative then undefined else x
  else if y.isInfinite then y
  else
    let (a, b) := x.signedRatio
    let (c, d) := y.signedRatio
    ofRatio (x.negative && y.negative) (a * d + c * b) (b * d)

def difference (x y : Binary64) : Binary64 := if y.isNaN then sum x y else sum x y.opposite

def product (x y : Binary64) : Binary64 :=
  let negative := x.negative != y.negative
  if x.isNaN then x
  else if y.isNaN then y
  else if x.isInfinite || y.isInfinite then
    if x.isZero || y.isZero then undefined else infinity negative
  else nearest negative (x.ratio.1 * y.ratio.1) (x.ratio.2 * y.ratio.2)

def quotient (x y : Binary64) : Binary64 :=
  let negative := x.negative != y.negative
  if x.isNaN then x
  else if y.isNaN then y
  else if x.isInfinite then if y.isInfinite then undefined else infinity negative
  else if y.isInfinite then zero negative
  else if y.isZero then if x.isZero then undefined else infinity negative
  else nearest negative (x.ratio.1 * y.ratio.2) (x.ratio.2 * y.ratio.1)

/-- What remains of a number when another is taken away as often as it fits; the sign is
that of the first. -/
def remainder (x y : Binary64) : Binary64 :=
  if x.isNaN then x
  else if y.isNaN then y
  else if x.isInfinite || y.isZero then undefined
  else if y.isInfinite then x
  else
    let (a, b) := x.ratio
    let (c, d) := y.ratio
    nearest x.negative ((a * d) % (c * b)) (b * d)

def approximate (f : Float → Float) (x : Binary64) : Binary64 :=
  let y := ofBits (f (Float.ofBits x.toBits)).toBits
  if y.isNaN then (if x.isNaN then x else undefined) else y

def approximateBoth (f : Float → Float → Float) (x y : Binary64) : Binary64 :=
  let z := ofBits (f (Float.ofBits x.toBits) (Float.ofBits y.toBits)).toBits
  if z.isNaN then (if x.isNaN then x else if y.isNaN then y else undefined) else z

/-- A power. One by a whole number of moderate size is worked out exactly and rounded. -/
def power (x y : Binary64) : Binary64 :=
  if x.isFinite && !x.isZero && y.isIntegral && y.truncated.natAbs ≤ 1100 then
    let n := y.truncated
    let negative := x.negative && n % 2 != 0
    let (a, b) := x.ratio
    if 0 ≤ n then nearest negative (Nat.pow a n.natAbs) (Nat.pow b n.natAbs)
    else nearest negative (Nat.pow b n.natAbs) (Nat.pow a n.natAbs)
  else approximateBoth Float.pow x y

/-- How two numbers compare; one that is not a number comes behind all others. -/
def order (x y : Binary64) : Ordering :=
  if x.isNaN then (if y.isNaN then .eq else .gt)
  else if y.isNaN then .lt
  else
    let rank (z : Binary64) : Int := if z.negative then -(z.rank : Int) else z.rank
    compare (rank x) (rank y)

end Binary64
end TypedCommand
