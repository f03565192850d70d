/-
  Rounding to decimal places — a double is written as a canonical numeral, the
  numeral is rounded half away from zero to a quantum `10 ^ k`, and the result
  is read back.

  * `written` is the numeral of a double as its canonical form spells it: a
    whole number keeps the zero after its point.
  * `quantum? places` is the exponent `k`; powers of ten are kept to
    `precision` digits, so beyond `10 ^ (precision - 1)` the last digit kept is
    the quantum, and up to there a whole power has exponent zero.
  * `Decimal.quantize` rounds to a quantum, refusing a result of more than
    `precision` digits.
  * `roundPlaces` is the whole of it.
-/
import Rulebook.Number.Decimal

namespace Rulebook.Number

/-- Why a number cannot be rounded to decimal places. -/
inductive RoundingFault where
  /-- The quantum is beyond the largest power of ten. -/
  | quantumTooLarge
  /-- The result would need too many digits, or the number is infinite. -/
  | notRepresentable
  deriving DecidableEq, Repr

/-- The signal that a fault is reported by. -/
def RoundingFault.message : RoundingFault → String
  | quantumTooLarge => "[<class 'decimal.Overflow'>]"
  | notRepresentable => "[<class 'decimal.InvalidOperation'>]"

/-- The most digits that a result of rounding may have. -/
def precision : Nat := 28

/-- The largest exponent of a power of ten. -/
def largestPower : Int := 999999

/-- The numeral of a double as its canonical form spells it. -/
def written (d : Decimal) : Decimal :=
  let point : Int := (digitsOf d.digits).length + d.exponent
  if d.digits = 0 then ⟨d.negative, 0, -1⟩
  else if 0 ≤ d.exponent ∧ point ≤ Decimal.canonicalLayout.highest then
    ⟨d.negative, d.digits * Nat.pow 10 (d.exponent + 1).toNat, -1⟩
  else d

/-- The exponent of the quantum for a number of decimal places. -/
def quantum? (places : Int) : Except RoundingFault Int :=
  let power := -places
  if largestPower < power then .error .quantumTooLarge
  else if (precision : Int) ≤ power then .ok (power - (precision - 1))
  else if 0 ≤ power then .ok 0
  else .ok (max power (-largestPower - (precision - 1)))

/-- The numeral rounded to a multiple of `10 ^ k`, half away from zero. -/
def Decimal.quantize (d : Decimal) (k : Int) : Except RoundingFault Decimal :=
  if d.digits = 0 then .ok ⟨d.negative, 0, k⟩
  else if (precision : Int) < (digitsOf d.digits).length + (d.exponent - k) then
    .error .notRepresentable
  else if k ≤ d.exponent then
    .ok ⟨d.negative, d.digits * Nat.pow 10 (d.exponent - k).toNat, k⟩
  else
    .ok ⟨d.negative, roundQuotient .awayFromZero d.digits (Nat.pow 10 (k - d.exponent).toNat), k⟩

/-- A double rounded half away from zero to a number of decimal places. -/
def roundPlaces (x : Float) (places : Int) : Except RoundingFault Float := do
  let k ← quantum? places
  match shortest x with
  | some d => return ((← (written d).quantize k).toDouble)
  | none => if x.isNaN then return x else .error .notRepresentable

end Rulebook.Number
