/-! Non-negative numbers of 53 bits and an exponent: the nearest one to a decimal, and the
shortest decimal that reads back as it. -/
namespace RowStore

/-- A finite value is `mantissa * 2 ^ exponent` with `mantissa < 2 ^ 53` and the least
exponent that allows it, which is never under -1074. -/
inductive Binary64
  | finite (mantissa : Nat) (exponent : Int)
  | infinite
  deriving DecidableEq, Repr

namespace Binary64

def leastExponent : Int := -1074

def greatestExponent : Int := 971

/-- A mantissa has 53 bits at most, and the first of them is set unless the exponent is the least.
-/
def mantissaBound : Nat := 0x20000000000000

def leadingBit : Nat := 0x10000000000000

/-- The nearest whole number to `num / den`; of two, the even one. -/
def roundDiv (num den : Nat) : Nat :=
  let q := num / den
  let twice := 2 * (num % den)
  if twice < den then q
  else if twice = den ∧ q % 2 = 0 then q
  else q + 1

/-- `num / den` over `2 ^ exponent`, as a fraction. -/
def scaled (num den : Nat) (exponent : Int) : Nat × Nat :=
  (num * Nat.pow 2 (-exponent).toNat, den * Nat.pow 2 exponent.toNat)

/-- The exponent that leaves 53 bits before the point, or the least one. -/
def exponentOf (num den : Nat) : Int :=
  let guess : Int := (num.log2 : Int) - (den.log2 : Int) - 53
  let (n, d) := scaled num den guess
  max leastExponent (if n / d < mantissaBound then guess else guess + 1)

def ofRatio (num den : Nat) : Binary64 :=
  if num = 0 then finite 0 leastExponent
  else
    let exponent := exponentOf num den
    let (n, d) := scaled num den exponent
    let mantissa := roundDiv n d
    let (mantissa, exponent) :=
      if mantissa < mantissaBound then (mantissa, exponent) else (leadingBit, exponent + 1)
    if greatestExponent < exponent then infinite else finite mantissa exponent

/-- The nearest value to the number written with these digits before and after the point. -/
def ofDecimal (whole fraction : List Char) : Binary64 :=
  ofRatio (Nat.ofDigitChars 10 (whole ++ fraction) 0) (Nat.pow 10 fraction.length)

/-- The reals that round to a value, and the value itself, as numerators over one denominator. -/
structure Rounding where
  low : Nat
  exact : Nat
  high : Nat
  den : Nat
  closed : Bool

def rounding (mantissa : Nat) (exponent : Int) : Rounding :=
  let up := Nat.pow 2 exponent.toNat
  let below := if mantissa = leadingBit ∧ leastExponent < exponent then 1 else 2
  ⟨(4 * mantissa - below) * up, 4 * mantissa * up, (4 * mantissa + 2) * up,
    4 * Nat.pow 2 (-exponent).toNat, mantissa % 2 = 0⟩

def Rounding.holds (r : Rounding) (num den : Nat) : Bool :=
  if r.closed then r.low * den ≤ num * r.den && num * r.den ≤ r.high * den
  else r.low * den < num * r.den && num * r.den < r.high * den

/-- `digit * 10 ^ power` as a fraction. -/
def onGrid (digits : Nat) (power : Int) : Nat × Nat :=
  (digits * Nat.pow 10 power.toNat, Nat.pow 10 (-power).toNat)

/-- Of the value's two neighbours on the grid of step `10 ^ power`, the nearer one that
rounds to it; the upper one where both are as near. -/
def gridPoint? (r : Rounding) (power : Int) : Option Nat :=
  let up := Nat.pow 10 power.toNat
  let down := Nat.pow 10 (-power).toNat
  let digits := r.exact * down / (r.den * up)
  let inside := fun d => let (n, m) := onGrid d power; r.holds n m
  let past := 2 * (r.exact * down % (r.den * up))
  match inside digits, inside (digits + 1) with
  | true, true => some (if past < r.den * up then digits else digits + 1)
  | true, false => some digits
  | false, true => some (digits + 1)
  | false, false => none

/-- The power of ten of the first digit of `num / den`, sought down from zero. -/
def powerBelowOne (num den : Nat) : Nat → Int
  | 0 => 0
  | fuel + 1 => if den ≤ num then 0 else powerBelowOne (10 * num) den fuel - 1

def leadingPower (num den : Nat) : Int :=
  if den ≤ num then ((Nat.toDigits 10 (num / den)).length : Int) - 1
  else powerBelowOne num den 400

/-- The first grid, from coarse to fine, with a point that reads back. -/
def shortestFrom (r : Rounding) (power : Int) : Nat → Nat × Int
  | 0 => (0, power)
  | fuel + 1 =>
      match gridPoint? r power with
      | some digits => (digits, power)
      | none => shortestFrom r (power - 1) fuel

/-- The fewest digits that read back, and the power of ten of the last one. -/
def shortest (mantissa : Nat) (exponent : Int) : Nat × Int :=
  let r := rounding mantissa exponent
  shortestFrom r (leadingPower r.exact r.den) 20

def zeros (n : Nat) : List Char := List.replicate n '0'

def dropZeros (cs : List Char) : List Char := (cs.reverse.dropWhile (· = '0')).reverse

/-- Digits with the point after the first `count`, at least one digit on each side. -/
def positional (digits : List Char) (count : Int) : List Char :=
  let whole := if count ≤ 0 then ['0'] else digits.take count.toNat ++ zeros (count.toNat - digits.length)
  let fraction := dropZeros (zeros (-count).toNat ++ digits.drop count.toNat)
  whole ++ ['.'] ++ (if fraction.isEmpty then ['0'] else fraction)

def scientific (digits : List Char) (power : Int) : List Char :=
  let fraction := dropZeros (digits.drop 1)
  digits.take 1 ++ (if fraction.isEmpty then [] else '.' :: fraction) ++ ['e'] ++ (toString power).toList

/-- Powers of ten from -4 to 15 are written out, all others with an exponent. -/
def render : Binary64 → String
  | infinite => "inf"
  | finite mantissa exponent =>
      if mantissa = 0 then "0.0"
      else
        let (value, lastPower) := shortest mantissa exponent
        let digits := Nat.toDigits 10 value
        let power := lastPower + digits.length - 1
        if -5 < power ∧ power < 16 then String.ofList (positional digits (power + 1))
        else String.ofList (scientific digits power)

end Binary64
end RowStore
