/-
  Binary64 numbers in exact arithmetic.

  A number is held as a sign, a significand below 2^53 and an exponent of two, and every operation
  is "compute the exact fraction, then round": `Binary64.round` takes a fraction of natural numbers
  to the nearest number with such a significand, a half going to the even one.  Multiplication and
  division are that rounding of the exact product and quotient, so nothing here depends on a
  floating-point unit, and every result can be computed inside a proof.

  The exponent has no upper bound while computing; `isFinite` says afterwards whether the result is
  within the range of the format, which is what rounding first and judging the overflow later means.
-/
namespace ScriptTree

/-- A binary64 number: the sign, and the magnitude `significand * 2 ^ exponent`.  What the
    functions below return is canonical: the significand is below 2^53, and it is at least 2^52
    unless the exponent is the least one, -1074.  Zero keeps its sign. -/
structure Binary64 where
  negative : Bool
  significand : Nat
  exponent : Int
  deriving DecidableEq, Repr

namespace Binary64

/-! ## Rounding a fraction -/

/-- `num / den` as the nearest natural number, a half going to the even one. -/
def roundDiv (num den : Nat) : Nat :=
  if 2 * (num % den) < den ∨ (2 * (num % den) = den ∧ num / den % 2 = 0) then num / den
  else num / den + 1

/-- Numerator and denominator of `(num / den) * base ^ e`, for an exponent of either sign. -/
def scale (base num den : Nat) : Int → Nat × Nat
  | .ofNat k => (num * Nat.pow base k, den)
  | .negSucc k => (num, den * Nat.pow base (k + 1))

/-- The exponent of the greatest power of `base` not above `num / den`, given a first guess that
    is right or one too large. -/
def settle (base num den : Nat) (guess : Int) : Int :=
  let s := scale base num den (-guess)
  if s.2 ≤ s.1 then guess else guess - 1

/-- The exponent of the greatest power of two not above `num / den`: the difference of the bit
    lengths, or one less. -/
def floorLog2 (num den : Nat) : Int :=
  settle 2 num den ((Nat.log2 num : Int) - Nat.log2 den)

/-- The nearest number to `num / den`, with the given sign. -/
def round (negative : Bool) (num den : Nat) : Binary64 :=
  if num = 0 then ⟨negative, 0, -1074⟩
  else
    let q := max (floorLog2 num den - 52) (-1074)
    let s := scale 2 num den (-q)
    let m := roundDiv s.1 s.2
    -- rounding may carry into the next power of two, 2^53
    if m = 0x20000000000000 then ⟨negative, 0x10000000000000, q + 1⟩ else ⟨negative, m, q⟩

/-- The magnitude as a numerator and a denominator. -/
def fraction (x : Binary64) : Nat × Nat :=
  scale 2 x.significand 1 x.exponent

/-- Whether the exponent is within the range of the format. -/
def isFinite (x : Binary64) : Bool :=
  x.exponent ≤ 971

/-- Both zeros. -/
def isZero (x : Binary64) : Bool :=
  x.significand == 0

/-- Whether the magnitude is a natural number. -/
def isWhole (x : Binary64) : Bool :=
  x.fraction.1 % x.fraction.2 == 0

/-! ## Arithmetic -/

/-- The nearest number to a natural number. -/
def ofNat (n : Nat) : Binary64 :=
  round false n 1

/-- The nearest number to an integer. -/
def ofInt (n : Int) : Binary64 :=
  round (n < 0) n.natAbs 1

/-- The nearest number to the exact product. -/
def mul (x y : Binary64) : Binary64 :=
  round (x.negative != y.negative) (x.fraction.1 * y.fraction.1) (x.fraction.2 * y.fraction.2)

/-- The nearest number to the exact quotient, for a divisor other than zero. -/
def div (x y : Binary64) : Binary64 :=
  round (x.negative != y.negative) (x.fraction.1 * y.fraction.2) (x.fraction.2 * y.fraction.1)

/-- The same number with the opposite sign. -/
def neg (x : Binary64) : Binary64 :=
  { x with negative := !x.negative }

/-! ## Rounding at the edges -/

example : round false 1 10 = ⟨false, 7205759403792794, -56⟩ := by decide +kernel
example : ofNat 9007199254740993 = ⟨false, 4503599627370496, 1⟩ := by decide +kernel
example : (ofNat (10 ^ 308)).isFinite = true ∧ (ofNat (10 ^ 309)).isFinite = false := by
  decide +kernel
example : round true 1 (10 ^ 400) = ⟨true, 0, -1074⟩ := by decide +kernel
example : (ofInt (-6)).div (ofInt 4) = ⟨true, 6755399441055744, -52⟩ := by decide +kernel

end Binary64

end ScriptTree
