/-!
Floating-point numbers of 64 bits in exact arithmetic, where a finite one is a mantissa times a
power of two: the nearest one to a decimal, and the shortest decimal that reads back as a given one.
A decimal halfway between two numbers is read as the one with the even mantissa. Of two decimals
that are equally short and near, the one further from zero is written.
-/

namespace Scaffold

inductive Binary64 where
  | finite (negative : Bool) (mantissa : Nat) (exponent : Int)
  | infinite (negative : Bool)
  | nan
deriving DecidableEq, Repr

inductive Tie where
  | toEven
  | up
deriving DecidableEq, Repr

structure Ratio where
  numerator : Nat
  denominator : Nat

namespace Ratio

def scale (ratio : Ratio) (base : Nat) (exponent : Int) : Ratio :=
  if 0 ≤ exponent then ⟨ratio.numerator * Nat.pow base exponent.toNat, ratio.denominator⟩
  else ⟨ratio.numerator, ratio.denominator * Nat.pow base exponent.natAbs⟩

def floor (ratio : Ratio) : Nat := ratio.numerator / ratio.denominator

def lt (left right : Ratio) : Bool :=
  left.numerator * right.denominator < right.numerator * left.denominator

def le (left right : Ratio) : Bool := !right.lt left

def round (tie : Tie) (ratio : Ratio) : Nat :=
  let below := ratio.floor
  let twiceRest := 2 * (ratio.numerator - below * ratio.denominator)
  if twiceRest < ratio.denominator then below
  else if ratio.denominator < twiceRest then below + 1
  else match tie with
    | .toEven => below + below % 2
    | .up => below + 1

example : [⟨1, 2⟩, ⟨3, 2⟩, ⟨5, 3⟩].map (round .toEven) = [0, 2, 2] := by decide
example : [⟨1, 2⟩, ⟨5, 2⟩, ⟨4, 3⟩].map (round .up) = [1, 3, 1] := by decide

end Ratio

namespace Binary64

/-- Two to the power 53: mantissas stay below. -/
def mantissaBound : Nat := 9007199254740992

/-- Two to the power 52: at the least exponent alone are mantissas smaller. -/
def leastNormal : Nat := 4503599627370496

def minExponent : Int := -1074

def maxExponent : Int := 971

/-- The number nearest to a positive fraction, or `none` beyond the largest finite number. -/
def ofRatio? (negative : Bool) (ratio : Ratio) : Option Binary64 :=
  let bits : Int := ratio.numerator.log2 - ratio.denominator.log2
  let first := max (bits - 53) minExponent
  let exponent := if mantissaBound ≤ (ratio.scale 2 (-first)).floor then first + 1 else first
  let mantissa := (ratio.scale 2 (-exponent)).round .toEven
  let carried : Nat × Int :=
    if mantissa = mantissaBound then (leastNormal, exponent + 1) else (mantissa, exponent)
  if maxExponent < carried.2 then none else some (.finite negative carried.1 carried.2)

def ofDecimal? (negative : Bool) (digits : Nat) (exponent : Int) : Option Binary64 :=
  let magnitude : Int := (Nat.toDigits 10 digits).length + exponent
  if digits = 0 ∨ magnitude < -400 then some (.finite negative 0 minExponent)
  else if 400 < magnitude then none
  else ofRatio? negative (Ratio.scale ⟨digits, 1⟩ 10 exponent)

structure Interval where
  low : Ratio
  high : Ratio
  closed : Bool

def Interval.contains (interval : Interval) (ratio : Ratio) : Bool :=
  if interval.closed then interval.low.le ratio && ratio.le interval.high
  else interval.low.lt ratio && ratio.lt interval.high

def roundingInterval (mantissa : Nat) (exponent : Int) : Interval :=
  let lowGap := if mantissa = leastNormal ∧ minExponent < exponent then 1 else 2
  { low := Ratio.scale ⟨4 * mantissa - lowGap, 4⟩ 2 exponent
    high := Ratio.scale ⟨4 * mantissa + 2, 4⟩ 2 exponent
    closed := mantissa % 2 == 0 }

/-- The exponent of the smallest power of ten above a positive fraction: the logarithm to base two
bounds it up to three candidates. -/
def decimalMagnitude (ratio : Ratio) : Int :=
  let bits : Int := ratio.numerator.log2 - ratio.denominator.log2
  let least := (bits - 1) * 30103 / 100000
  let candidates := [least, least + 1, least + 2]
  (candidates.find? fun exponent => ratio.lt (Ratio.scale ⟨1, 1⟩ 10 exponent)).getD (least + 3)

/-- The multiple of `10 ^ exponent` nearest to the fraction, among those of its two neighbours that
lie in the interval. -/
def nearestOnGrid? (ratio : Ratio) (interval : Interval) (exponent : Int) : Option Nat :=
  let below := (ratio.scale 10 (-exponent)).floor
  let inside := [below, below + 1].filter fun digits =>
    interval.contains (Ratio.scale ⟨digits, 1⟩ 10 exponent)
  match inside with
  | [] => none
  | [digits] => some digits
  | _ => some ((ratio.scale 10 (-exponent)).round .up)

/-- The shortest decimal `(digits, exponent)` that reads back as `mantissa * 2 ^ exponent`: the
coarsest grid with a point in the interval, and the nearer point of two. -/
def shortest (mantissa : Nat) (exponent : Int) : Nat × Int :=
  let ratio := Ratio.scale ⟨mantissa, 1⟩ 2 exponent
  let interval := roundingInterval mantissa exponent
  let magnitude := decimalMagnitude ratio
  let found := (List.range 17).findSome? fun index =>
    let grid := magnitude - (index + 1 : Nat)
    (nearestOnGrid? ratio interval grid).map (·, grid)
  let (digits, grid) := found.getD (mantissa, 0)
  if digits % 10 = 0 then (digits / 10, grid + 1) else (digits, grid)

def positional (digits : Nat) (exponent : Int) : String :=
  let text := Nat.toDigits 10 digits
  if 0 ≤ exponent then String.ofList (text ++ List.replicate exponent.toNat '0') ++ ".0"
  else
    let places := exponent.natAbs
    let padded := List.leftpad (places + 1) '0' text
    String.ofList (padded.take (padded.length - places)) ++ "." ++
      String.ofList (padded.drop (padded.length - places))

def text : Binary64 → String
  | finite negative 0 _ => if negative then "-0.0" else "0.0"
  | finite negative mantissa exponent =>
    let (digits, grid) := shortest mantissa exponent
    (if negative then "-" else "") ++ positional digits grid
  | infinite negative => if negative then "-inf" else "inf"
  | nan => "NaN"

example : (ofDecimal? false 15 (-1)).map text = some "1.5" := by decide +kernel
example : (ofDecimal? true 1 23).map text = some "-100000000000000000000000.0" := by decide +kernel
example : (ofDecimal? false 1 (-5)).map text = some "0.00001" := by decide +kernel
example : (ofDecimal? true 100000762939453125 (-17)).map text = some "-1.0000076293945313" := by
  decide +kernel
example : (ofDecimal? false 90071992547409930 (-1)).map text = some "9007199254740992.0" := by
  decide +kernel
example : ofDecimal? false 18 307 = none := by decide +kernel

end Binary64

end Scaffold
