import LedgerWire.Radix
import LedgerWire.Text.Notation

namespace LedgerWire

/-- A finite binary number with 53 significant bits: the significand times two
to the exponent. The exponent is at least `-1074`, and a significand below
`2 ^ 52` has that least exponent. -/
structure Binary64 where
  negative : Bool
  significand : Nat
  exponent : Int
  deriving DecidableEq, Repr

namespace Binary64

def leastExponent : Int := -1074

def greatestExponent : Int := 971

def zero : Binary64 := ⟨false, 0, leastExponent⟩

/-! ## Rounding -/

/-- The whole number nearest to a quotient; a tie goes to the even one. -/
def roundQuotient (numerator denominator : Nat) : Nat :=
  let quotient := numerator / denominator
  let twice := 2 * (numerator % denominator)
  if twice < denominator then quotient
  else if denominator < twice then quotient + 1
  else quotient + quotient % 2

/-- The number nearest to a quotient of naturals, if the range holds it. -/
def ofQuotient (numerator denominator : Nat) : Option Binary64 :=
  if numerator = 0 then
    some zero
  else
    let atMost : Int := (numerator.log2 : Int) - denominator.log2 - 52
    let scaled (exponent : Int) : Nat × Nat :=
      (numerator * 2 ^ (-exponent).toNat, denominator * 2 ^ exponent.toNat)
    let full := (scaled atMost).1 / (scaled atMost).2
    let exponent := max (if full < 2 ^ 52 then atMost - 1 else atMost) leastExponent
    let significand := roundQuotient (scaled exponent).1 (scaled exponent).2
    let (significand, exponent) :=
      if significand = 2 ^ 53 then (2 ^ 52, exponent + 1) else (significand, exponent)
    if greatestExponent < exponent then none else some ⟨false, significand, exponent⟩

/-- The rounded product of two magnitudes, if the range holds it. -/
def mul? (left right : Binary64) : Option Binary64 :=
  let exponent := left.exponent + right.exponent
  ofQuotient (left.significand * right.significand * 2 ^ exponent.toNat)
    (2 ^ (-exponent).toNat)

/-- The rounded quotient of two magnitudes, if the range holds it. -/
def div? (left right : Binary64) : Option Binary64 :=
  let exponent := left.exponent - right.exponent
  ofQuotient (left.significand * 2 ^ exponent.toNat)
    (right.significand * 2 ^ (-exponent).toNat)

/-! ## From decimals -/

/-- The largest power of ten within the range. -/
def greatestPower : Nat := 308

/-- Divides by a power of ten in rounded steps of at most `10 ^ 308`. -/
def divPower? (value : Binary64) (power : Nat) : Option Binary64 :=
  if large : greatestPower < power then
    if value.significand = 0 then
      some value
    else do
      let scale ← ofQuotient (10 ^ greatestPower) 1
      let quotient ← value.div? scale
      divPower? quotient (power - greatestPower)
  else do
    let scale ← ofQuotient (10 ^ power) 1
    value.div? scale
termination_by power
decreasing_by simp only [greatestPower] at *; omega

/-- The number read from a decimal significand and a power of ten. The
significand is rounded first and then scaled by rounded powers of ten, so the
result can be a unit in the last place off the nearest number. A magnitude past
the range is refused. -/
def ofDecimal? (significand : Nat) (exponent : Int) : Option Binary64 := do
  let value ← ofQuotient significand 1
  if exponent < 0 then
    value.divPower? exponent.natAbs
  else if exponent ≤ greatestPower then
    let scale ← ofQuotient (10 ^ exponent.toNat) 1
    value.mul? scale
  else if value.significand = 0 then
    some value
  else
    none

/-! ## Shortest digits -/

/-- The number of decimal digits. -/
def digitCount (value : Nat) : Nat := (Nat.toDigits 10 value).length

/-- The power of ten of the first significant digit of a positive quotient. -/
def decimalExponent (numerator denominator : Nat) : Int :=
  if denominator ≤ numerator then
    (digitCount (numerator / denominator) : Int) - 1
  else
    -(digitCount ((denominator - 1) / numerator) : Int)

/-- The neighbour of a positive number on the grid of multiples of `10 ^ unit`
that reads back as the number, the nearer one if both do. -/
def neighbour? (value : Binary64) (unit : Int) : Option Nat :=
  let exponent := value.exponent - 2
  let left := 2 ^ exponent.toNat * 10 ^ (-unit).toNat
  let right := 10 ^ unit.toNat * 2 ^ (-exponent).toNat
  let narrow := value.significand = 2 ^ 52 ∧ leastExponent < value.exponent
  let lowest := (4 * value.significand - if narrow then 1 else 2) * left
  let middle := 4 * value.significand * left
  let highest := (4 * value.significand + 2) * left
  let inside (candidate : Nat) : Bool :=
    if value.significand % 2 = 0 then
      lowest ≤ candidate * right && candidate * right ≤ highest
    else
      lowest < candidate * right && candidate * right < highest
  let below := middle / right
  let above := below + 1
  match inside below, inside above with
  | false, false => none
  | true, false => some below
  | false, true => some above
  | true, true =>
      let down := middle - below * right
      let up := above * right - middle
      some (if down < up ∨ (down = up ∧ below % 2 = 0) then below else above)

/-- The fewest significant digits that read back as a positive number, without
trailing zeros, and the power of ten of the first of them. -/
def shortestDigits (value : Binary64) : List Char × Int :=
  let first := decimalExponent (value.significand * 2 ^ value.exponent.toNat)
    (2 ^ (-value.exponent).toNat)
  let grids := (List.range 17).map fun (count : Nat) => first - (count : Int)
  match grids.findSome? fun unit => (value.neighbour? unit).map (·, unit) with
  | none => ([], 0)
  | some (multiple, unit) =>
      let digits := Nat.toDigits 10 multiple
      ((digits.reverse.dropWhile (· == '0')).reverse, unit + digits.length - 1)

/-- The text of a number: its shortest digits, positional from `0.00001` up to
`10 ^ 16` with at least one digit after the point, and exponential elsewhere. -/
def toText (value : Binary64) : String :=
  let sign := if value.negative then ['-'] else []
  if value.significand = 0 then
    String.ofList (sign ++ ['0', '.', '0'])
  else
    let (digits, exponent) := value.shortestDigits
    let body :=
      if exponent < -5 ∨ 16 ≤ exponent then
        Text.exponential digits exponent
      else if digits.length ≤ exponent + 1 then
        Text.positional digits exponent ++ ['.', '0']
      else
        Text.positional digits exponent
    String.ofList (sign ++ body)

end Binary64

end LedgerWire
