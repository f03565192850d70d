/-
  Decimal numerals — `± digits · 10 ^ exponent` — and how they are written.

  * `Decimal.toDouble` reads a numeral: the nearest double.
  * `shortest` writes a double: the fewest digits that read back as the double,
    and of those the nearest to it, a tie going to the even digit. Each
    candidate is read back before it is taken, so what `shortest` gives reads
    back by construction.
  * `Decimal.plain` spells a numeral out by position; `Decimal.canonical`
    leaves the positional form below `10 ^ -4` and from `10 ^ 16` on.
  * `fixedPlaces` writes the exact value with a given number of places.
-/
import Rulebook.Number.Double

namespace Rulebook.Number

/-- A decimal numeral: `± digits · 10 ^ exponent`. -/
structure Decimal where
  negative : Bool
  digits : Nat
  exponent : Int
  deriving DecidableEq, Repr

/-! ## Reading -/

namespace Decimal

/-- No numeral with an exponent beyond this has a finite double. -/
def farExponent : Int := 400

/-- The double nearest to a numeral. Far exponents are settled without
    computing the power of ten. -/
def toDouble (d : Decimal) : Float :=
  if d.digits = 0 then zero d.negative
  else if farExponent < d.exponent then infinity d.negative
  else if d.exponent < -(farExponent + d.digits.log2) then zero d.negative
  else if 0 ≤ d.exponent then nearest d.negative (d.digits * Nat.pow 10 d.exponent.toNat) 1
  else nearest d.negative d.digits (Nat.pow 10 (-d.exponent).toNat)

/-- The numeral without the zeros at the end of its digits; `fuel` bounds how
    many are dropped. -/
def trimFrom : Nat → Decimal → Decimal
  | 0, d => d
  | fuel + 1, d =>
    if d.digits ≠ 0 ∧ d.digits % 10 = 0 then
      trimFrom fuel { d with digits := d.digits / 10, exponent := d.exponent + 1 }
    else d

/-- The numeral without the zeros at the end of its digits. -/
def trim (d : Decimal) : Decimal := trimFrom d.digits.log2 d

end Decimal

/-! ## The shortest numeral of a double -/

/-- The ratio `num / (den · 10 ^ k)`, with both sides naturals. -/
def scaleDownDecimal (num den : Nat) (k : Int) : Nat × Nat :=
  if 0 ≤ k then (num, den * Nat.pow 10 k.toNat) else (num * Nat.pow 10 (-k).toNat, den)

/-- Where the decimal point of `num / den` stands: the least `p` near the
    estimate with `num / den < 10 ^ p`. -/
def decimalPoint (num den : Nat) : Int :=
  let estimate := ((num.log2 : Int) - den.log2) * 30103 / 100000
  let below (p : Int) : Bool := let (n, d) := scaleDownDecimal num den p; n < d
  if below (estimate - 1) then estimate - 1
  else if below estimate then estimate
  else if below (estimate + 1) then estimate + 1
  else estimate + 2

/-- The numerals of `count` digits beside `num / den`, the nearer one first. -/
def neighbours (negative : Bool) (num den : Nat) (point : Int) (count : Nat) : List Decimal :=
  let k := point - count
  let (n, d) := scaleDownDecimal num den k
  let low : Decimal := ⟨negative, n / d, k⟩
  let high : Decimal := ⟨negative, n / d + 1, k⟩
  if roundQuotient .toEven n d = n / d then [low, high] else [high, low]

/-- A double written out exactly. -/
def exactDecimal (negative : Bool) (significand : Nat) (exponent : Int) : Decimal :=
  if 0 ≤ exponent then ⟨negative, significand * Nat.pow 2 exponent.toNat, 0⟩
  else ⟨negative, significand * Nat.pow 5 (-exponent).toNat, exponent⟩

/-- The fewest digits that read back as the double; none for infinities and NaN.
    Seventeen digits always suffice; the exact numeral closes the search. -/
def shortest (x : Float) : Option Decimal :=
  match parts x with
  | .finite negative 0 _ => some ⟨negative, 0, 0⟩
  | .finite negative m e =>
    let (num, den) := ratio m e
    let point := decimalPoint num den
    let candidates := (List.range 17).flatMap fun i =>
      (neighbours negative num den point (i + 1)).map Decimal.trim
    some ((candidates.find? fun d => same d.toDouble x).getD (exactDecimal negative m e))
  | _ => none

/-! ## Layout -/

/-- A run of zeros. -/
def zeros (n : Nat) : List Char := List.replicate n '0'

/-- The digits of a natural, in base ten. -/
def digitsOf (n : Nat) : List Char := Nat.toDigits 10 n

/-- Digits with a point put in after the first `point` of them, zeros filling
    the gap on either side. -/
def placePoint (digits : List Char) (point : Int) : List Char :=
  if point ≤ 0 then '0' :: '.' :: (zeros (-point).toNat ++ digits)
  else if digits.length ≤ point.toNat then digits ++ zeros (point.toNat - digits.length)
  else digits.take point.toNat ++ '.' :: digits.drop point.toNat

/-- A sign in front. -/
def withSign (negative : Bool) (text : List Char) : List Char :=
  if negative then '-' :: text else text

namespace Decimal

/-- Spelled out by position, without an exponent. -/
def plain (d : Decimal) : List Char :=
  withSign d.negative <|
    if d.digits = 0 then ['0']
    else placePoint (digitsOf d.digits) ((digitsOf d.digits).length + d.exponent)

/-- How a canonical numeral is laid out: positional for points in
    `(lowest, highest]`, a whole one with `.0`, else one digit before the point
    and an exponent of at least `exponentDigits` digits with its sign. -/
structure Layout where
  lowest : Int
  highest : Int
  exponentDigits : Nat

/-- The layout of canonical numerals. -/
def canonicalLayout : Layout := ⟨-4, 16, 2⟩

/-- The exponent part of a numeral. -/
def exponentMark (layout : Layout) (e : Int) : List Char :=
  let ds := digitsOf e.natAbs
  'e' :: (if e < 0 then '-' else '+') :: (zeros (layout.exponentDigits - ds.length) ++ ds)

/-- The canonical form of a numeral in a layout. -/
def canonicalWith (layout : Layout) (d : Decimal) : List Char :=
  withSign d.negative <|
    let ds := digitsOf d.digits
    let point : Int := ds.length + d.exponent
    if d.digits = 0 then "0.0".toList
    else if layout.lowest < point ∧ point ≤ layout.highest then
      let text := placePoint ds point
      if text.contains '.' then text else text ++ ".0".toList
    else
      let head := ds.take 1 ++ if ds.length = 1 then [] else '.' :: ds.drop 1
      head ++ exponentMark layout (point - 1)

/-- The canonical form of a numeral. -/
def canonical (d : Decimal) : List Char := canonicalWith canonicalLayout d

end Decimal

/-- The texts of the doubles that have no numeral. -/
def unboundedText (x : Float) : String :=
  match parts x with
  | .infinite true => "-inf"
  | .infinite false => "inf"
  | _ => "nan"

/-- The canonical text of a double: the shortest numeral that reads back, whole
    numbers with `.0`. -/
def canonicalText (x : Float) : String :=
  match shortest x with
  | some d => String.ofList d.canonical
  | none => unboundedText x

/-- The text of a double without an exponent and without a trailing `.0`. -/
def plainText (x : Float) : String :=
  match shortest x with
  | some d => String.ofList d.plain
  | none => unboundedText x

/-- The exact value with `places` digits after the point, a tie going to the
    even digit. -/
def fixedPlaces (x : Float) (places : Nat) : String :=
  match parts x with
  | .finite negative m e =>
    let (num, den) := ratio m e
    let scaled := digitsOf (roundQuotient .toEven (num * Nat.pow 10 places) den)
    let padded := zeros (places + 1 - scaled.length) ++ scaled
    let whole := padded.take (padded.length - places)
    let fraction := padded.drop (padded.length - places)
    String.ofList (withSign negative (if places = 0 then whole else whole ++ '.' :: fraction))
  | _ => unboundedText x

end Rulebook.Number
