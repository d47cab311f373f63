import TypedCommand.Number.Integer

/-!
Floating-point numbers of 64 bits. A number is a sign and a rank: the ranks count the
absolute values upwards from zero, first the finite ones, then infinity, then the
values that are not a number. All arithmetic is exact, on natural numbers; a ratio is
rounded to the nearest number, a tie to the even rank.
-/

namespace TypedCommand

/-- A binary floating-point number: its sign, and its absolute value by rank. The rank
is the biased exponent, eleven bits, above the fraction, fifty-two bits. -/
structure Binary64 where
  negative : Bool
  rank : Fin 0x8000000000000000
deriving DecidableEq

namespace Binary64

def fractions : Nat := 0x10000000000000

def infinityRank : Nat := 0x7FF0000000000000

def ofRank (negative : Bool) (rank : Nat) : Binary64 :=
  if h : rank < infinityRank then ⟨negative, rank, by unfold infinityRank at h; omega⟩
  else ⟨negative, infinityRank, by unfold infinityRank; omega⟩

def zero (negative : Bool) : Binary64 := ofRank negative 0

def infinity (negative : Bool) : Binary64 := ofRank negative infinityRank

def notANumber (negative : Bool) : Binary64 :=
  ⟨negative, 0x7FF8000000000000, by omega⟩

/-- The number whose interchange format is the given bits: the sign bit on top. -/
def ofBits (bits : UInt64) : Binary64 :=
  ⟨0x8000000000000000 ≤ bits.toNat, bits.toNat % 0x8000000000000000, by omega⟩

def toBits (x : Binary64) : UInt64 :=
  UInt64.ofNat ((if x.negative then 0x8000000000000000 else 0) + x.rank)

def isNaN (x : Binary64) : Bool := infinityRank < x.rank

def isInfinite (x : Binary64) : Bool := x.rank == infinityRank

def isFinite (x : Binary64) : Bool := x.rank < infinityRank

def isZero (x : Binary64) : Bool := x.rank == 0

/-- The absolute value of a finite number is `significand · 2 ^ scale`. -/
def significand (x : Binary64) : Nat :=
  if x.rank < fractions then x.rank else x.rank % fractions + fractions

@[inherit_doc significand]
def scale (x : Binary64) : Int := max (x.rank / fractions : Nat) 1 - 1075

def ratio (x : Binary64) : Nat × Nat :=
  (x.significand * Nat.pow 2 x.scale.toNat, Nat.pow 2 (-x.scale).toNat)

def isIntegral (x : Binary64) : Bool :=
  x.isFinite && x.ratio.1 % x.ratio.2 == 0

/-- The quotient rounded to the nearest natural number, a tie to the even one. -/
def roundQuotient (num den : Nat) : Nat :=
  let q := num / den
  let r := num % den
  if 2 * r < den then q
  else if den < 2 * r then q + 1
  else if q % 2 = 0 then q else q + 1

def floorLog2 (num den : Nat) : Int :=
  let k : Int := (Nat.log2 num : Int) - Nat.log2 den
  if den * Nat.pow 2 k.toNat ≤ num * Nat.pow 2 (-k).toNat then k else k - 1

/-- The number nearest to `num / den`. Scaled to its significand and rounded there, a
carry moves into the exponent by itself, since ranks are consecutive. -/
def nearest (negative : Bool) (num den : Nat) : Binary64 :=
  if num = 0 then zero negative
  else
    let scale : Int := max (floorLog2 num den - 52) (-1074)
    let significand :=
      roundQuotient (num * Nat.pow 2 (-scale).toNat) (den * Nat.pow 2 scale.toNat)
    ofRank negative ((scale + 1074).toNat * fractions + significand)

end Binary64
end TypedCommand
