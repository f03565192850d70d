/-
  Doubles — what the bits of a `Float` stand for, and the double nearest to an
  exact ratio.

  * `Parts` is a double taken apart: not a number, an infinity, or
    `± significand · 2 ^ exponent`; `parts x` takes `x` apart and
    `ofMagnitude` puts sign and magnitude bits together.
  * `roundQuotient` rounds a ratio of naturals to a natural, a tie going as
    `Ties` says.
  * `nearest` is the double nearest to a ratio, a tie going to the even
    significand and what lies beyond the largest double to infinity.
  * `trunc?`, `isWhole` and `ofInt?` pass between doubles and integers.

  Everything here is exact arithmetic on naturals, so no law depends on how the
  machine computes.
-/

namespace Rulebook.Number

/-! ## Rounding a ratio -/

/-- Which of two equally near neighbours a rounding takes. -/
inductive Ties where
  /-- The even one. -/
  | toEven
  /-- The one of larger magnitude. -/
  | awayFromZero
  deriving DecidableEq, Repr

/-- The natural nearest to `num / den`, a tie going as `ties` says. -/
def roundQuotient (ties : Ties) (num den : Nat) : Nat :=
  let q := num / den
  let r := num % den
  match compare (2 * r) den with
  | .lt => q
  | .gt => q + 1
  | .eq => match ties with
    | .toEven => q + q % 2
    | .awayFromZero => q + 1

/-! ## Taking a double apart -/

/-- What a double stands for. -/
inductive Parts where
  | nan
  | infinite (negative : Bool)
  /-- `± significand · 2 ^ exponent` -/
  | finite (negative : Bool) (significand : Nat) (exponent : Int)
  deriving DecidableEq, Repr

/-- The exponent of the smallest doubles. -/
def leastExponent : Int := -1074

/-- The bit above the fraction, which has 52 bits. -/
def unitBit : Nat := 1 <<< 52

/-- The bit above the magnitude. -/
def signBit : Nat := 1 <<< 63

/-- The magnitude bits of infinity. -/
def infinityBits : Nat := 2047 * unitBit

/-- The sign bit of a double, set also for `-0.0`. -/
def isNegative (x : Float) : Bool := signBit ≤ x.toBits.toNat

/-- The bits of a double without its sign. -/
def magnitudeBits (x : Float) : Nat := x.toBits.toNat % signBit

/-- A double taken apart. -/
def parts (x : Float) : Parts :=
  let bits := magnitudeBits x
  let field : Nat := bits / unitBit
  let fraction : Nat := bits % unitBit
  if field = 2047 then
    if fraction = 0 then .infinite (isNegative x) else .nan
  else if field = 0 then .finite (isNegative x) fraction leastExponent
  else .finite (isNegative x) (unitBit + fraction) (leastExponent + ((field : Int) - 1))

/-- The double with this sign and these magnitude bits. -/
def ofMagnitude (negative : Bool) (bits : Nat) : Float :=
  Float.ofBits (UInt64.ofNat (bits + if negative then signBit else 0))

/-- Infinity with a sign. -/
def infinity (negative : Bool) : Float := ofMagnitude negative infinityBits

/-- Zero with a sign. -/
def zero (negative : Bool) : Float := ofMagnitude negative 0

/-- Neither infinite nor NaN. -/
def isFinite (x : Float) : Bool := magnitudeBits x < infinityBits

/-- Two doubles are the same when their bits are: NaN is NaN, and `0.0` is not `-0.0`. -/
def same (x y : Float) : Bool := x.toBits == y.toBits

theorem eq_of_toBits_eq {x y : Float} (h : x.toBits = y.toBits) : x = y := by
  rcases x with ⟨⟨bx, vx⟩⟩
  rcases y with ⟨⟨bY, vY⟩⟩
  have : bx = bY := h
  subst this
  rfl

/-- Doubles are told apart by their bits. -/
instance instDecidableEqFloat : DecidableEq Float := fun x y =>
  if h : x.toBits = y.toBits then .isTrue (eq_of_toBits_eq h)
  else .isFalse fun e => h (e ▸ rfl)

/-! ## The nearest double -/

/-- The ratio `num / (den · 2 ^ e)`, with both sides naturals. -/
def scaleDown (num den : Nat) (e : Int) : Nat × Nat :=
  if 0 ≤ e then (num, den <<< e.toNat) else (num <<< (-e).toNat, den)

/-- The exponent at which `num / den` has a significand of 53 bits, or the
    least exponent where it has fewer there. -/
def binaryExponent (num den : Nat) : Int :=
  let e := max ((num.log2 : Int) - den.log2 - 53) leastExponent
  let (n, d) := scaleDown num den e
  if n / d < 2 * unitBit then e else e + 1

/-- The double nearest to `± num / den`, for a positive `den`. The magnitude
    bits of `m · 2 ^ e` are `m` counted on from the first double with exponent
    `e`, so a carry out of the significand needs no case of its own. -/
def nearest (negative : Bool) (num den : Nat) : Float :=
  if num = 0 then zero negative
  else
    let e := binaryExponent num den
    let (n, d) := scaleDown num den e
    let bits := (e - leastExponent).toNat * unitBit + roundQuotient .toEven n d
    ofMagnitude negative (min bits infinityBits)

/-! ## Whole numbers -/

/-- The exact value of a finite double's magnitude as a ratio. -/
def ratio (significand : Nat) (exponent : Int) : Nat × Nat :=
  if 0 ≤ exponent then (significand <<< exponent.toNat, 1)
  else (significand, 1 <<< (-exponent).toNat)

/-- An integer with a sign. -/
def signed (negative : Bool) (n : Nat) : Int := if negative then -(n : Int) else n

/-- The integer part, towards zero; none for infinities and NaN. -/
def trunc? (x : Float) : Option Int :=
  match parts x with
  | .finite negative m e => let (n, d) := ratio m e; some (signed negative (n / d))
  | _ => none

/-- The largest integer at most `x`; none for infinities and NaN. -/
def floor? (x : Float) : Option Int :=
  match parts x with
  | .finite negative m e => let (n, d) := ratio m e; some ((signed negative n).fdiv d)
  | _ => none

/-- The least integer at least `x`; none for infinities and NaN. -/
def ceil? (x : Float) : Option Int :=
  match parts x with
  | .finite negative m e => let (n, d) := ratio m e; some (-(-(signed negative n)).fdiv d)
  | _ => none

/-- A finite double without a fraction. -/
def isWhole (x : Float) : Bool :=
  match parts x with
  | .finite _ m e => let (n, d) := ratio m e; n % d = 0
  | _ => false

/-- The double nearest to an integer. -/
def ofInt (n : Int) : Float := nearest (n < 0) n.natAbs 1

/-- The double nearest to an integer; none when it lies beyond the largest double. -/
def ofInt? (n : Int) : Option Float :=
  let x := ofInt n
  if isFinite x then some x else none

/-- The double nearest to a natural. -/
def ofNat (n : Nat) : Float := ofInt n

/-- The magnitude of a double. -/
def abs (x : Float) : Float := ofMagnitude false (magnitudeBits x)

end Rulebook.Number
