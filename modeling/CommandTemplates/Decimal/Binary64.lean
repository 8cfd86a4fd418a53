import CommandTemplates.Text.Search

/-!
# Decimal numbers and binary floating point

A decimal number stands for the nearest number with 53 binary digits and an exponent
between -1074 and 971. Written back, such a number gets the fewest decimal digits that
still stand for it.

## Main Definitions

* `Binary64` — a magnitude `significand * 2 ^ exponent`
* `Binary64.ofDecimal` — the nearest magnitude, unless it is too large
* `Binary64.shortest` — the fewest digits that stand for a magnitude, and their exponent
* `positional` — digits and exponent written with a point and no exponent

## Design Notes

All arithmetic is on exact fractions of natural numbers. Halfway cases go to the even
significand when a decimal is read; when digits are chosen, the larger of two equally
near ones is taken.
-/

namespace CommandTemplates.Decimal

/-- A magnitude `significand * 2 ^ exponent`. -/
structure Binary64 where
  significand : Nat
  exponent : Int
  deriving DecidableEq, Repr

/-- A fraction of natural numbers. -/
structure Fraction where
  num : Nat
  den : Nat
  deriving DecidableEq, Repr

namespace Fraction

/-- The fraction times a power of a base. -/
def scale (f : Fraction) (base : Nat) (e : Int) : Fraction :=
  if 0 ≤ e then ⟨f.num * Nat.pow base e.toNat, f.den⟩
  else ⟨f.num, f.den * Nat.pow base (-e).toNat⟩

/-- Whether one fraction is at most the other. -/
def le (f g : Fraction) : Bool := f.num * g.den ≤ g.num * f.den

/-- Whether one fraction is less than the other. -/
def lt (f g : Fraction) : Bool := f.num * g.den < g.num * f.den

/-- The nearest natural number; a half goes to the even neighbour. -/
def round (f : Fraction) : Nat :=
  let whole := f.num / f.den
  let twice := 2 * (f.num % f.den)
  if twice < f.den then whole
  else if twice = f.den then whole + whole % 2
  else whole + 1

end Fraction

namespace Binary64

/-- The smallest exponent. -/
def minExponent : Int := -1074

/-- The largest exponent of a full significand. -/
def maxExponent : Int := 971

/-- The nearest magnitude to a positive fraction. -/
def ofFraction (f : Fraction) : Option Binary64 :=
  let estimate : Int := (Nat.log2 f.num : Int) - Nat.log2 f.den - 53
  let low := max estimate minExponent
  let q := if (f.scale 2 (-low)).lt ⟨1 <<< 53, 1⟩ then low else low + 1
  let m := (f.scale 2 (-q)).round
  let b : Binary64 := if m = 1 <<< 53 then ⟨1 <<< 52, q + 1⟩ else ⟨m, q⟩
  if maxExponent < b.exponent then none else some b

/-- The nearest magnitude to `digits * 10 ^ exponent`; none if it is too large. -/
def ofDecimal (digits : Nat) (exponent : Int) : Option Binary64 :=
  let places : Int := (Text.ofNat digits).length + exponent
  if digits = 0 ∨ places < -330 then some ⟨0, minExponent⟩
  else if 310 < places then none
  else ofFraction (Fraction.scale ⟨digits, 1⟩ 10 exponent)

/-- The fractions that stand for a magnitude lie between these two. -/
def bounds (b : Binary64) : Fraction × Fraction :=
  let high := Fraction.scale ⟨2 * b.significand + 1, 2⟩ 2 b.exponent
  let low :=
    if b.significand = 1 <<< 52 ∧ minExponent < b.exponent then
      Fraction.scale ⟨4 * b.significand - 1, 4⟩ 2 b.exponent
    else Fraction.scale ⟨2 * b.significand - 1, 2⟩ 2 b.exponent
  (low, high)

/-- Whether a fraction stands for a magnitude: the bounds do if the significand is even. -/
def covers (b : Binary64) (f : Fraction) : Bool :=
  let (low, high) := b.bounds
  if b.significand % 2 = 0 then low.le f && f.le high else low.lt f && f.lt high

/-- Of the two multiples of `10 ^ k` around a magnitude, the nearer that stands for it. -/
def onGrid (b : Binary64) (k : Int) : Option Nat :=
  let f := Fraction.scale ⟨b.significand, 1⟩ 2 b.exponent
  let scaled := f.scale 10 (-k)
  let below := scaled.num / scaled.den
  let multiple (n : Nat) : Fraction := Fraction.scale ⟨n, 1⟩ 10 k
  let lower := 2 * (scaled.num % scaled.den) < scaled.den
  match b.covers (multiple below), b.covers (multiple (below + 1)) with
  | true, true => some (if lower then below else below + 1)
  | true, false => some below
  | false, true => some (below + 1)
  | false, false => none

/-- The first grid, from coarse to fine, that has a multiple standing for the magnitude. -/
def shortestFrom (b : Binary64) (k : Int) : Nat → Nat × Int
  | 0 => (b.significand, 0)
  | fuel + 1 =>
    match b.onGrid k with
    | some digits => (digits, k)
    | none => shortestFrom b (k - 1) fuel

/-- The fewest digits that stand for a positive magnitude, and their exponent. -/
def shortest (b : Binary64) : Nat × Int := shortestFrom b 309 640

end Binary64

/-- Digits times a power of ten, with a point that has a digit on both sides. -/
def positional (digits : Nat) (exponent : Int) : Text :=
  let text := Text.ofNat digits
  if 0 ≤ exponent then text ++ List.replicate exponent.toNat '0' ++ ['.', '0']
  else
    let places := (-exponent).toNat
    if places < text.length then
      text.take (text.length - places) ++ ['.'] ++ text.drop (text.length - places)
    else ['0', '.'] ++ List.replicate (places - text.length) '0' ++ text

/-- A magnitude in the fewest digits, written with a point. -/
def Binary64.text (b : Binary64) : Text :=
  if b.significand = 0 then ['0', '.', '0']
  else
    let (digits, exponent) := b.shortest
    positional digits exponent

end CommandTemplates.Decimal
