/-! Double precision numbers as a sign and a rank. Ranks enumerate the non-negative doubles in
ascending order, and every finite one is a whole number of units of 2^-1074, so rounding and
comparison are exact arithmetic on `Nat`. -/
namespace RegionalTables

/-- The rank is the bit pattern below the sign bit: `infinityRank` is infinity, above it are NaNs. -/
structure Binary64 where
  negative : Bool
  rank : Nat
  bounded : rank < 0x8000000000000000
  deriving DecidableEq

namespace Binary64

def infinityRank : Nat := 0x7FF0000000000000

def ofRank (negative : Bool) (rank : Nat) : Binary64 :=
  ⟨negative, min rank 0x7FFFFFFFFFFFFFFF, by omega⟩

def zero : Binary64 := ofRank false 0
def infinity (negative : Bool) : Binary64 := ofRank negative infinityRank
def nan (negative : Bool) : Binary64 := ofRank negative (infinityRank + 0x8000000000000)

instance : Inhabited Binary64 := ⟨zero⟩

def isFinite (x : Binary64) : Bool := x.rank < infinityRank
def isNaN (x : Binary64) : Bool := infinityRank < x.rank

/-- How many doubles there are from one power of two to the next. -/
def binade : Nat := 0x10000000000000

/-- The magnitude of a finite rank, in units of 2^-1074. -/
def units (rank : Nat) : Nat :=
  if rank < 2 * binade then rank else (binade + rank % binade) <<< (rank / binade - 1)

/-- The whole number nearest to `n / d`; of two nearest the even one. -/
def roundHalfEven (n d : Nat) : Nat :=
  let q := n / d
  let twice := 2 * (n % d)
  if twice < d then q else if d < twice then q + 1 else q + q % 2

/-- The rank whose magnitude is nearest to `n / d` units, ties going to the even rank. Beyond the
largest finite magnitude this is `infinityRank`. -/
def nearestRank (n d : Nat) : Nat :=
  let shift := (n / d).log2 - 52
  min infinityRank (shift * binade + roundHalfEven n (d <<< shift))

def unit : Nat := 1 <<< 1074

def ofInt (i : Int) : Binary64 := ofRank (i < 0) (nearestRank (i.natAbs * unit) 1)

def isIntegral (x : Binary64) : Bool := x.isFinite && units x.rank % unit == 0

/-- The value of an integral number. -/
def toInt (x : Binary64) : Int :=
  let magnitude : Int := (units x.rank / unit : Nat)
  if x.negative then -magnitude else magnitude

/-- Orders all numbers, NaNs at both ends by sign and -0 before 0. -/
def orderKey (x : Binary64) : Int := if x.negative then -(x.rank + 1 : Int) else x.rank

def totalCompare (x y : Binary64) : Ordering := compare x.orderKey y.orderKey

/-- Equal for -0 and 0, otherwise ascending in the value. -/
def valueKey (x : Binary64) : Int := if x.negative then -(x.rank : Int) else x.rank

/-- Numerical order, which holds of no NaN. -/
def atMost (x y : Binary64) : Bool := !x.isNaN && !y.isNaN && x.valueKey ≤ y.valueKey

@[ext] theorem ext {x y : Binary64} (sign : x.negative = y.negative) (rank : x.rank = y.rank) :
    x = y := by
  cases x; cases y; simp_all

end Binary64

end RegionalTables
