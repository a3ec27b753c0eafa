/-
# Decimals of floating-point values

A word of 32 or 64 bits spells a value: a sign and a significand times a power of two, an infinity, or
no number.  Every value of a 32-bit word is a value of some 64-bit word too, and `ofSingle` gives it
with the significand that the 64-bit word has (`ofSingle` normalises), so one rule prints both.

A value is printed with the fewest decimal digits that read back as the same 64-bit value, and of
those the nearest to it.  The reals that read back as a value form an interval around it, with its
ends exactly when the significand is even.  For one digit, two digits and so on the value has two
neighbours on the grid of decimals with that many digits; the first grid of which one lies in the
interval has the answer.  Seventeen digits always suffice.  All arithmetic is on natural numbers: a
value, its interval and a grid point are numerators over one common denominator.
-/

namespace Replica

/-- The number `digits * 10 ^ exponent`. -/
structure Decimal where
  digits : Nat
  exponent : Int
  deriving DecidableEq, Repr

namespace Decimal

/-! ## 1. Binary floating-point words -/

/-- A finite magnitude `significand * 2 ^ exponent`, held with 53 bits or with the least exponent. -/
structure Magnitude where
  significand : Nat
  exponent : Int
  deriving DecidableEq, Repr

/-- What a floating-point word spells. -/
inductive Binary where
  | notANumber
  | infinite (negative : Bool)
  | finite (negative : Bool) (magnitude : Magnitude)
  deriving DecidableEq, Repr

namespace Binary

/-- A word with `fractionBits` bits of fraction under `exponentBits` bits of exponent under a sign. -/
def ofWord (exponentBits fractionBits word : Nat) : Binary :=
  let fraction := word % Nat.pow 2 fractionBits
  let exponent := word / Nat.pow 2 fractionBits % Nat.pow 2 exponentBits
  let negative := word / Nat.pow 2 (fractionBits + exponentBits) % 2 = 1
  let bias : Int := Nat.pow 2 (exponentBits - 1) - 1
  if exponent = Nat.pow 2 exponentBits - 1 then
    if fraction = 0 then .infinite negative else .notANumber
  else if exponent = 0 then .finite negative ⟨fraction, 1 - bias - fractionBits⟩
  else .finite negative ⟨Nat.pow 2 fractionBits + fraction, exponent - bias - fractionBits⟩

/-- The value of a 64-bit word. -/
def ofDouble (word : Nat) : Binary := ofWord 11 52 word

/-- The same magnitude with a significand of 53 bits. -/
def normalise (m : Magnitude) : Magnitude :=
  if m.significand = 0 then m
  else
    let shift := 52 - m.significand.log2
    ⟨m.significand * Nat.pow 2 shift, m.exponent - shift⟩

/-- The value of a 32-bit word. -/
def ofSingle (word : Nat) : Binary :=
  match ofWord 8 23 word with
  | .finite negative m => .finite negative (normalise m)
  | special => special

end Binary

/-! ## 2. The interval of a value -/

/-- The value `value / denominator` and the interval `low / denominator … high / denominator` of the
reals that read back as it. -/
structure Interval where
  value : Nat
  low : Nat
  high : Nat
  denominator : Nat
  closed : Bool

/-- The interval of a magnitude.  Below a power of two the next value is only half as far. -/
def Interval.ofMagnitude (m : Magnitude) : Interval :=
  let unit := Nat.pow 2 m.exponent.toNat
  let below := if m.significand = Nat.pow 2 52 ∧ -1074 < m.exponent then 1 else 2
  { value := 4 * m.significand * unit
    low := (4 * m.significand - below) * unit
    high := (4 * m.significand + 2) * unit
    denominator := 4 * Nat.pow 2 (-m.exponent).toNat
    closed := m.significand % 2 = 0 }

/-- Whether a point of the grid lies in the interval. -/
def Interval.contains (i : Interval) (numerator denominator : Nat) : Bool :=
  let low := i.low * denominator
  let high := i.high * denominator
  let point := numerator * i.denominator
  if i.closed then low ≤ point ∧ point ≤ high else low < point ∧ point < high

/-! ## 3. The grids of one digit, two digits and so on -/

/-- The least `e` with `value < 10 ^ e`, for a value above zero. -/
def magnitudeOf (value denominator : Nat) : Int :=
  if denominator ≤ value then ((Nat.toDigits 10 (value / denominator)).length : Int)
  else
    match (List.range 400).find? fun j => denominator ≤ value * Nat.pow 10 (j + 1) with
    | some j => -(j : Int)
    | none => 0

/-- The answer on the grid whose points are multiples of `10 ^ exponent`, if it has one. -/
def onGrid (i : Interval) (exponent : Int) : Option Decimal :=
  let up := Nat.pow 10 exponent.toNat
  let down := Nat.pow 10 (-exponent).toNat
  let below := i.value * down / (i.denominator * up)
  let remainder := i.value * down % (i.denominator * up)
  let hit (d : Nat) : Bool := i.contains (d * up) down
  let belowIsNearer := 2 * remainder < i.denominator * up
  match hit below, hit (below + 1) with
  | true, true => some ⟨if belowIsNearer then below else below + 1, exponent⟩
  | true, false => some ⟨below, exponent⟩
  | false, true => some ⟨below + 1, exponent⟩
  | false, false => none

/-- No zero at the end of the digits. -/
def strip : (fuel : Nat) → Decimal → Decimal
  | 0, d => d
  | fuel + 1, d =>
    if d.digits ≠ 0 ∧ d.digits % 10 = 0 then strip fuel ⟨d.digits / 10, d.exponent + 1⟩ else d

/-- The shortest decimal that reads back as a magnitude. -/
def shortest (m : Magnitude) : Decimal :=
  if m.significand = 0 then ⟨0, 0⟩
  else
    let i := Interval.ofMagnitude m
    let top := magnitudeOf i.value i.denominator
    let answer := (List.range 17).findSome? fun (n : Nat) => onGrid i (top - (n + 1 : Nat))
    strip 20 (answer.getD ⟨0, 0⟩)

/-! ## 4. Printing -/

/-- Positional notation with a point and at least one digit on each side of it. -/
def positional (d : Decimal) : String :=
  let digits := toString d.digits
  if 0 ≤ d.exponent then
    digits ++ String.ofList (List.replicate d.exponent.toNat '0') ++ ".0"
  else
    let places := (-d.exponent).toNat
    let cs := List.replicate (places + 1 - digits.length) '0' ++ digits.toList
    String.ofList (cs.take (cs.length - places)) ++ "." ++
      String.ofList (cs.drop (cs.length - places))

/-- The text of a floating-point value. -/
def Binary.text : Binary → String
  | .notANumber => "NaN"
  | .infinite negative => if negative then "-inf" else "inf"
  | .finite negative m => (if negative then "-" else "") ++ (shortest m).positional

end Decimal
end Replica
